import MySqlProxy.Packet.FrameWalk

/-!
# The fields of a client packet

What the payload bytes do to the fields `FromClientPacket` adds, one operation at a time:
`openPacket` at the first payload byte of a logical packet, `continuePacket` at the first payload
byte of a continuation frame, `collectData` at every byte that is kept. Each of them changes what
the fields hold (`Contents`) whatever room the SQL string has, and asks the string for room
whatever it holds, so it is given by two functions that know nothing of each other: the contents
after it, and the capacity after it.

* **`openPacket_ok_iff`, `continuePacket_ok_iff`, `collectData_ok_iff`** — the operation goes
  through exactly when the capacity is granted, and then does its part to the contents;
* **`openPacket_error_iff`, `continuePacket_error_iff`, `collectData_error_iff`** — it throws what
  the string throws, and `openPacket` rejects a packet before the string is asked.
-/

namespace Proxy

open Framing BasicString

/-! ## What the fields hold -/

/-- What the fields hold, whatever room the SQL string has. -/
structure Contents where
  command : MySqlCommand.Command := .UNKNOWN
  sqlDataReceiving : Bool := false
  sql : List UInt8 := []
  deriving DecidableEq, Repr

namespace Contents

/-- A new command in the command phase. The receive mode is switched on, never off. -/
def startCommand (payload0 : UInt8) (contents : Contents) : Contents where
  command := ⟨payload0⟩
  sqlDataReceiving := contents.sqlDataReceiving || MySqlCommand.hasSqlField ⟨payload0⟩
  sql := []

/-- The first payload byte of a logical packet that is not rejected. -/
def opened (x : StampedByte) (contents : Contents) : Contents :=
  match x.2 with
  | .CONNECTION_PHASE => contents
  | .COMMAND_PHASE => contents.startCommand x.1

/-- Payload bytes after the command byte. -/
def appendData (bytes : List UInt8) (contents : Contents) : Contents :=
  { contents with sql := if contents.sqlDataReceiving then contents.sql ++ bytes else contents.sql }

/-- The last payload byte of a packet. -/
def dataIsReceived (contents : Contents) : Contents := { contents with sqlDataReceiving := false }

/-- The byte that ends the payload. -/
def closePacket (m : Message StampedByte) (contents : Contents) : Contents :=
  if m.last.payload = [] then contents else contents.dataIsReceived

@[simp] theorem appendData_nil (contents : Contents) : contents.appendData [] = contents := by
  simp [appendData]

theorem appendData_append (xs ys : List UInt8) (contents : Contents) :
    (contents.appendData xs).appendData ys = contents.appendData (xs ++ ys) := by
  cases hmode : contents.sqlDataReceiving <;> simp [appendData, hmode]

@[simp] theorem appendData_command (bytes : List UInt8) (contents : Contents) :
    (contents.appendData bytes).command = contents.command := rfl

@[simp] theorem appendData_mode (bytes : List UInt8) (contents : Contents) :
    (contents.appendData bytes).sqlDataReceiving = contents.sqlDataReceiving := rfl

@[simp] theorem closePacket_command (m : Message StampedByte) (contents : Contents) :
    (contents.closePacket m).command = contents.command := by
  unfold closePacket
  split <;> rfl

@[simp] theorem closePacket_sql (m : Message StampedByte) (contents : Contents) :
    (contents.closePacket m).sql = contents.sql := by
  unfold closePacket
  split <;> rfl

theorem closePacket_mode (m : Message StampedByte) (contents : Contents) :
    (contents.closePacket m).sqlDataReceiving
      = (contents.sqlDataReceiving && m.last.payload.isEmpty) := by
  unfold closePacket
  split <;> simp_all [dataIsReceived]

/-- The last byte of a frame: it closes the data, unless the frame is full or its last byte is a
header byte. -/
def closeFrame (f : Frame StampedByte) (contents : Contents) : Contents :=
  if f.payload = [] ∨ f.IsFull then contents else contents.dataIsReceived

theorem closeFrame_full {f : Frame StampedByte} (h : f.IsFull) (contents : Contents) :
    contents.closeFrame f = contents := if_pos (Or.inr h)

theorem closeFrame_last (m : Message StampedByte) (contents : Contents) :
    contents.closeFrame m.last = contents.closePacket m := by
  simp [closeFrame, closePacket, m.last_not_isFull]

/-- The first frame of a logical packet. -/
def beginFrame (contents : Contents) (f : Frame StampedByte) : Contents :=
  match f.payload with
  | [] => contents
  | x :: rest => ((contents.opened x).appendData (rest.map Prod.fst)).closeFrame f

/-- A continuation frame. -/
def continueFrame (contents : Contents) (f : Frame StampedByte) : Contents :=
  (contents.appendData (f.payload.map Prod.fst)).closeFrame f

/-- A logical packet. -/
def afterMessage (contents : Contents) (m : Message StampedByte) : Contents :=
  m.frames.tail.foldl continueFrame (contents.beginFrame m.first)

/-- Full continuation frames only append. Induction on the frames. -/
theorem foldl_continueFrame_full {fs : List (Frame StampedByte)} (hfull : ∀ f ∈ fs, f.IsFull)
    (contents : Contents) :
    fs.foldl continueFrame contents
      = contents.appendData ((fs.flatMap Frame.payload).map Prod.fst) := by
  induction fs generalizing contents with
  | nil => rw [List.foldl_nil, List.flatMap_nil, List.map_nil, appendData_nil]
  | cons f fs ih =>
    rw [List.foldl_cons, ih (fun g hg => hfull g (by simp [hg])), continueFrame,
      closeFrame_full (hfull f (by simp)), appendData_append, List.flatMap_cons, List.map_append]

theorem afterMessage_nil {m : Message StampedByte} (hpayload : m.payload = [])
    (contents : Contents) : contents.afterMessage m = contents := by
  obtain ⟨hfull, hlast⟩ := Message.payload_eq_nil_iff.mp hpayload
  simp [afterMessage, Message.frames, Message.first, hfull, beginFrame, hlast]

/-- **A packet that is not empty** opens, collects and closes. -/
theorem afterMessage_cons {m : Message StampedByte} {x : StampedByte} {rest : List StampedByte}
    (hpayload : m.payload = x :: rest) (contents : Contents) :
    contents.afterMessage m
      = ((contents.opened x).appendData (rest.map Prod.fst)).closePacket m := by
  have hhead := m.head?_payload
  rw [hpayload, List.head?_cons] at hhead
  obtain ⟨w, hw⟩ := List.head?_eq_some_iff.mp hhead.symm
  have hbegin : contents.beginFrame m.first
      = ((contents.opened x).appendData (w.map Prod.fst)).closeFrame m.first := by
    rw [beginFrame, hw]
  rw [afterMessage, hbegin]
  rcases m.frames_cases with ⟨hfirst, htail, hall⟩ | ⟨fs, hfirst, hfull, htail, hall⟩
  · -- the first frame is the last one
    obtain ⟨-, rfl⟩ := List.cons.inj (hpayload.symm.trans (hall.trans hw))
    rw [htail, hfirst, List.foldl_nil, closeFrame_last]
  · rw [hw, List.cons_append] at hall
    obtain ⟨-, rfl⟩ := List.cons.inj (hpayload.symm.trans hall)
    rw [htail, List.foldl_append, foldl_continueFrame_full hfull, List.foldl_cons, List.foldl_nil,
      continueFrame, closeFrame_full hfirst, closeFrame_last, appendData_append, appendData_append,
      List.map_append, List.map_append]

end Contents

namespace FromClientFields

def contents (packet : FromClientFields) : Contents where
  command := packet.command
  sqlDataReceiving := packet.sqlDataReceiving
  sql := packet.sqlString.chars

/-- The fields are what they hold and the room there is. -/
theorem eq_of_contents {packet packet' : FromClientFields} (h : packet.contents = packet'.contents)
    (hcapacity : packet.sqlString.capacity = packet'.sqlString.capacity) : packet = packet' := by
  obtain ⟨hcommand, hmode, hsql⟩ := Contents.mk.inj h
  exact FromClientFields.ext hcommand hmode (BasicString.ext hsql hcapacity)

/-- The fields that hold `contents`, with room for `capacity` characters. -/
theorem exists_of_contents (contents : Contents) {capacity : Nat}
    (h : contents.sql.length ≤ capacity) :
    ∃ packet : FromClientFields, packet.contents = contents ∧
      packet.sqlString.capacity = capacity :=
  ⟨⟨contents.command, contents.sqlDataReceiving, ⟨contents.sql, capacity, h⟩⟩, rfl, rfl⟩

@[simp] theorem contents_dataIsReceived (packet : FromClientFields) :
    packet.dataIsReceived.contents = packet.contents.dataIsReceived := rfl

end FromClientFields

theorem throwing_ok_iff {α : Type} {result : Except Failure α} {a : α} :
    throwing result = .ok a ↔ result = .ok a := by
  cases result <;> simp [throwing, Except.mapError]

theorem throwing_error_iff {α : Type} {result : Except Failure α} {e : Exception} :
    throwing result = .error e ↔ ∃ failure, result = .error failure ∧ e = .ofString failure := by
  cases result <;> simp [throwing, Except.mapError, eq_comm]

/-! ## Which packets are rejected -/

/-- The command byte of a packet the parser rejects: a valid command in the command phase whose
frame does not have the sequence id 0. -/
def FromClientFields.Rejected (sequenceId : UInt8) (x : StampedByte) : Prop :=
  x.2 = .COMMAND_PHASE ∧ MySqlCommand.isValid ⟨x.1⟩ = true ∧ sequenceId ≠ 0

instance (sequenceId : UInt8) (x : StampedByte) :
    Decidable (FromClientFields.Rejected sequenceId x) :=
  inferInstanceAs (Decidable (_ ∧ _))

variable [Library]

namespace FromClientFields

/-! ## The first payload byte of a logical packet -/

/-- A new command in the command phase: the string is emptied, and a command with an SQL field
reserves room for the rest of its frame. -/
def startCommand (payloadLength : UInt64) (payload0 : UInt8) (packet : FromClientFields) :
    Except Exception FromClientFields :=
  let sqlString := packet.sqlString.clear.shrinkToFit
  if MySqlCommand.hasSqlField ⟨payload0⟩ then
    (throwing (sqlString.reserve (reserveLength payloadLength).toNat)).map fun sqlString =>
      { command := ⟨payload0⟩, sqlDataReceiving := true, sqlString := sqlString }
  else
    .ok { command := ⟨payload0⟩, sqlDataReceiving := packet.sqlDataReceiving,
          sqlString := sqlString }

/-- The first payload byte of a logical packet. -/
def openPacket (payloadLength : UInt64) (sequenceId : UInt8) (x : StampedByte)
    (packet : FromClientFields) : Except Exception FromClientFields :=
  if Rejected sequenceId x then .error (.runtimeError "BAD packet")
  else
    match x.2 with
    | .CONNECTION_PHASE => .ok packet
    | .COMMAND_PHASE => packet.startCommand payloadLength x.1

theorem commandPhaseParse_first {base : MySqlPacket} (h : base.payloadFirstPart = true)
    (b : UInt8) (packet : FromClientFields) :
    commandPhaseParse base b packet
      = openPacket base.payloadLength base.sequenceId (b, .COMMAND_PHASE) packet := by
  by_cases hbad : MySqlCommand.isValid ⟨b⟩ = true ∧ base.sequenceId ≠ 0
  · simp [commandPhaseParse, openPacket, Rejected, h, hbad, bind, Except.bind]
  · cases hsql : MySqlCommand.hasSqlField ⟨b⟩ with
    | false =>
      simp [commandPhaseParse, openPacket, Rejected, startCommand, h, hbad, hsql, bind,
        Except.bind]
    | true =>
      simp only [commandPhaseParse, openPacket, Rejected, startCommand, h, hbad, hsql, bind,
        Except.bind, if_true, if_false, true_and]
      cases throwing (packet.sqlString.clear.shrinkToFit.reserve
        (reserveLength base.payloadLength).toNat) <;> rfl

/-- The capacity after the first payload byte of a logical packet that is not rejected. -/
def openCapacity (capacity : Nat) (payloadLength : UInt64) (x : StampedByte) :
    Except Failure Nat :=
  match x.2 with
  | .CONNECTION_PHASE => .ok capacity
  | .COMMAND_PHASE =>
    if MySqlCommand.hasSqlField ⟨x.1⟩ then
      grow (Library.shrink 0 capacity) (reserveLength payloadLength).toNat
    else .ok (Library.shrink 0 capacity)

theorem startCommand_ok_iff {payloadLength : UInt64} {b : UInt8}
    {packet packet' : FromClientFields} :
    packet.startCommand payloadLength b = .ok packet' ↔
      packet'.contents = packet.contents.startCommand b ∧
        openCapacity packet.sqlString.capacity payloadLength (b, .COMMAND_PHASE)
          = .ok packet'.sqlString.capacity := by
  unfold startCommand openCapacity
  cases hsql : MySqlCommand.hasSqlField ⟨b⟩ with
  | false =>
    simp only [Bool.false_eq_true, if_false, Except.ok.injEq]
    constructor
    · rintro rfl
      exact ⟨by simp [contents, Contents.startCommand, hsql], rfl⟩
    · rintro ⟨hcontents, hcapacity⟩
      refine eq_of_contents (Eq.trans ?_ hcontents.symm) hcapacity
      simp [contents, Contents.startCommand, hsql]
  | true =>
    simp only [if_true, Fallible.map_ok_iff, throwing_ok_iff, reserve_ok_iff]
    constructor
    · rintro ⟨string, ⟨hgrow, hchars⟩, rfl⟩
      exact ⟨by simp [contents, Contents.startCommand, hsql, hchars], hgrow⟩
    · rintro ⟨hcontents, hgrow⟩
      have hchars : packet'.sqlString.chars = [] := congrArg Contents.sql hcontents
      refine ⟨packet'.sqlString, ⟨hgrow, hchars⟩, eq_of_contents (Eq.trans ?_ hcontents.symm) rfl⟩
      simp [contents, Contents.startCommand, hsql, hchars]

/-- **Opening a packet.** -/
theorem openPacket_ok_iff {payloadLength : UInt64} {sequenceId : UInt8} {x : StampedByte}
    {packet packet' : FromClientFields} :
    packet.openPacket payloadLength sequenceId x = .ok packet' ↔
      ¬ Rejected sequenceId x ∧ packet'.contents = packet.contents.opened x ∧
        openCapacity packet.sqlString.capacity payloadLength x
          = .ok packet'.sqlString.capacity := by
  unfold openPacket
  by_cases hrej : Rejected sequenceId x
  · simp [hrej]
  · obtain ⟨b, st⟩ := x
    rw [if_neg hrej]
    cases st with
    | COMMAND_PHASE =>
      simp only [hrej, not_false_iff, true_and]
      exact startCommand_ok_iff
    | CONNECTION_PHASE =>
      simp only [hrej, not_false_iff, true_and, Except.ok.injEq, openCapacity, Contents.opened]
      constructor
      · rintro rfl
        exact ⟨rfl, rfl⟩
      · exact fun h => eq_of_contents h.1.symm h.2

/-- **A packet that is not opened** is rejected, or its first frame is refused the room. -/
theorem openPacket_error_iff {payloadLength : UInt64} {sequenceId : UInt8} {x : StampedByte}
    {packet : FromClientFields} {e : Exception} :
    packet.openPacket payloadLength sequenceId x = .error e ↔
      (Rejected sequenceId x ∧ e = .runtimeError "BAD packet") ∨
        (¬ Rejected sequenceId x ∧ ∃ failure,
          openCapacity packet.sqlString.capacity payloadLength x = .error failure ∧
            e = .ofString failure) := by
  unfold openPacket
  by_cases hrej : Rejected sequenceId x
  · simp [hrej, eq_comm]
  · obtain ⟨b, st⟩ := x
    rw [if_neg hrej]
    cases st with
    | CONNECTION_PHASE => simp [hrej, openCapacity]
    | COMMAND_PHASE =>
      simp only [hrej, false_and, not_false_iff, true_and, false_or, startCommand, openCapacity]
      cases hsql : MySqlCommand.hasSqlField ⟨b⟩ with
      | false => simp
      | true =>
        simp only [if_true]
        rw [Fallible.map_eq_error_iff, throwing_error_iff]
        simp only [reserve_error_iff]
        rfl

theorem openPacket_granted {payloadLength : UInt64} {sequenceId : UInt8} {x : StampedByte}
    {packet : FromClientFields} {capacity : Nat} (hrej : ¬ Rejected sequenceId x)
    (h : openCapacity packet.sqlString.capacity payloadLength x = .ok capacity) :
    ∃ opened, packet.openPacket payloadLength sequenceId x = .ok opened ∧
      opened.contents = packet.contents.opened x ∧ opened.sqlString.capacity = capacity := by
  have hroom : (packet.contents.opened x).sql.length ≤ capacity := by
    obtain ⟨b, st⟩ := x
    cases st with
    | CONNECTION_PHASE =>
      rw [← Except.ok.inj h]
      exact packet.sqlString.length_le
    | COMMAND_PHASE => exact Nat.zero_le _
  obtain ⟨opened, hcontents, rfl⟩ := exists_of_contents _ hroom
  exact ⟨opened, openPacket_ok_iff.mpr ⟨hrej, hcontents, h⟩, hcontents, rfl⟩

/-! ## The first payload byte of a continuation frame -/

/-- The first payload byte of a continuation frame: in the command phase, a command with an SQL
field reserves more room. -/
def continuePacket (payloadLength : UInt64) (st : MySqlConnectionState)
    (packet : FromClientFields) : Except Exception FromClientFields :=
  if st = .COMMAND_PHASE ∧ MySqlCommand.hasSqlField packet.command = true then
    (throwing (packet.sqlString.reserve
      (reserveMoreLength (UInt64.ofNat packet.sqlString.capacity) payloadLength).toNat)).map
        fun sqlString => { packet with sqlString := sqlString }
  else .ok packet

theorem commandPhaseParse_continued {base : MySqlPacket} (h : base.payloadFirstPart = false)
    (b : UInt8) (packet : FromClientFields) :
    commandPhaseParse base b packet
      = continuePacket base.payloadLength .COMMAND_PHASE packet := by
  unfold commandPhaseParse continuePacket
  cases hsql : MySqlCommand.hasSqlField packet.command with
  | false => simp [h, hsql, bind, Except.bind]
  | true =>
    simp only [h, hsql, bind, Except.bind, Bool.false_eq_true, if_true, if_false, true_and]
    cases throwing (packet.sqlString.reserve
      (reserveMoreLength (UInt64.ofNat packet.sqlString.capacity) base.payloadLength).toNat) <;> rfl

/-- The capacity after the first payload byte of a continuation frame. -/
def continueCapacity (command : MySqlCommand.Command) (capacity : Nat) (payloadLength : UInt64)
    (st : MySqlConnectionState) : Except Failure Nat :=
  if st = .COMMAND_PHASE ∧ MySqlCommand.hasSqlField command = true then
    grow capacity (reserveMoreLength (UInt64.ofNat capacity) payloadLength).toNat
  else .ok capacity

/-- **Continuing a packet.** -/
theorem continuePacket_ok_iff {payloadLength : UInt64} {st : MySqlConnectionState}
    {packet packet' : FromClientFields} :
    packet.continuePacket payloadLength st = .ok packet' ↔
      packet'.contents = packet.contents ∧
        continueCapacity packet.command packet.sqlString.capacity payloadLength st
          = .ok packet'.sqlString.capacity := by
  unfold continuePacket continueCapacity
  by_cases hreserves : st = .COMMAND_PHASE ∧ MySqlCommand.hasSqlField packet.command = true
  · simp only [if_pos hreserves, Fallible.map_ok_iff, throwing_ok_iff, reserve_ok_iff]
    constructor
    · rintro ⟨string, ⟨hgrow, hchars⟩, rfl⟩
      exact ⟨by simp [contents, hchars], hgrow⟩
    · rintro ⟨hcontents, hgrow⟩
      have hchars : packet'.sqlString.chars = packet.sqlString.chars :=
        congrArg Contents.sql hcontents
      refine ⟨packet'.sqlString, ⟨hgrow, hchars⟩, eq_of_contents (Eq.trans ?_ hcontents.symm) rfl⟩
      simp [contents, hchars]
  · simp only [if_neg hreserves, Except.ok.injEq]
    constructor
    · rintro rfl
      exact ⟨rfl, rfl⟩
    · exact fun h => eq_of_contents h.1.symm h.2

theorem continuePacket_error_iff {payloadLength : UInt64} {st : MySqlConnectionState}
    {packet : FromClientFields} {e : Exception} :
    packet.continuePacket payloadLength st = .error e ↔
      ∃ failure, continueCapacity packet.command packet.sqlString.capacity payloadLength st
        = .error failure ∧ e = .ofString failure := by
  unfold continuePacket continueCapacity
  by_cases hreserves : st = .COMMAND_PHASE ∧ MySqlCommand.hasSqlField packet.command = true
  · simp only [if_pos hreserves]
    rw [Fallible.map_eq_error_iff, throwing_error_iff]
    simp only [reserve_error_iff]
  · simp [if_neg hreserves]

theorem continuePacket_granted {payloadLength : UInt64} {st : MySqlConnectionState}
    {packet : FromClientFields} {capacity : Nat}
    (h : continueCapacity packet.command packet.sqlString.capacity payloadLength st
      = .ok capacity) :
    ∃ continued, packet.continuePacket payloadLength st = .ok continued ∧
      continued.contents = packet.contents ∧ continued.sqlString.capacity = capacity := by
  have hroom : packet.contents.sql.length ≤ capacity := by
    refine Nat.le_trans packet.sqlString.length_le ?_
    unfold continueCapacity at h
    split at h
    · exact capacity_le_of_grow h
    · exact Nat.le_of_eq (Except.ok.inj h)
  obtain ⟨continued, hcontents, rfl⟩ := exists_of_contents _ hroom
  exact ⟨continued, continuePacket_ok_iff.mpr ⟨hcontents, h⟩, hcontents, rfl⟩

/-! ## The bytes that are kept -/

/-- Bytes handed to `collect_data` one after the other. -/
def collectAll (bytes : List UInt8) (packet : FromClientFields) :
    Except Exception FromClientFields :=
  Fallible.run (fun packet b => packet.collectData b) packet bytes

/-- The capacity after a byte has been handed to `collect_data`. -/
def pushCapacity (mode : Bool) (size capacity : Nat) : Except Failure Nat :=
  if mode then grow capacity (size + 1) else .ok capacity

/-- The capacity after bytes have been handed to `collect_data`. -/
def pushAllCapacity (mode : Bool) (size capacity n : Nat) : Except Failure Nat :=
  if mode then pushed size capacity n else .ok capacity

theorem pushAllCapacity_one (mode : Bool) (size capacity : Nat) :
    pushAllCapacity mode size capacity 1 = pushCapacity mode size capacity := by
  cases mode with
  | false => rfl
  | true =>
    show pushed size capacity 1 = grow capacity (size + 1)
    rw [pushed]
    cases grow capacity (size + 1) <;> rfl

/-- The bytes ask for room as the contents have it. -/
theorem pushAllCapacity_contents {packet : FromClientFields} {contents : Contents}
    (h : packet.contents = contents) (capacity n : Nat) :
    pushAllCapacity packet.sqlDataReceiving packet.sqlString.chars.length capacity n
      = pushAllCapacity contents.sqlDataReceiving contents.sql.length capacity n := by
  rw [← h]
  rfl

/-- While the receive mode is on, the bytes are pushed. Induction on them. -/
theorem collectAll_eq (bytes : List UInt8) (packet : FromClientFields) :
    packet.collectAll bytes
      = if packet.sqlDataReceiving then
          (throwing (packet.sqlString.pushAll bytes)).map fun sqlString =>
            { packet with sqlString := sqlString }
        else .ok packet := by
  induction bytes generalizing packet with
  | nil =>
    split
    · rfl
    · rfl
  | cons b bytes ih =>
    rw [collectAll, Fallible.run_cons, collectData, pushAll, Fallible.run_cons]
    cases hmode : packet.sqlDataReceiving with
    | false =>
      have hrest := ih packet
      rw [hmode] at hrest
      exact hrest
    | true =>
      cases packet.sqlString.pushBack b with
      | error failure => rfl
      | ok sqlString =>
        have hrest := ih { packet with sqlString := sqlString }
        simp only [hmode] at hrest
        exact hrest

/-- **Collecting bytes.** -/
theorem collectAll_ok_iff {bytes : List UInt8} {packet packet' : FromClientFields} :
    packet.collectAll bytes = .ok packet' ↔
      packet'.contents = packet.contents.appendData bytes ∧
        pushAllCapacity packet.sqlDataReceiving packet.sqlString.chars.length
          packet.sqlString.capacity bytes.length = .ok packet'.sqlString.capacity := by
  rw [collectAll_eq]
  unfold pushAllCapacity
  cases hmode : packet.sqlDataReceiving with
  | false =>
    simp only [Bool.false_eq_true, if_false, Except.ok.injEq]
    have hsame : packet.contents.appendData bytes = packet.contents := by
      simp [Contents.appendData, contents, hmode]
    rw [hsame]
    constructor
    · rintro rfl
      exact ⟨rfl, rfl⟩
    · exact fun h => eq_of_contents h.1.symm h.2
  | true =>
    simp only [if_true, Fallible.map_ok_iff, throwing_ok_iff, pushAll_ok_iff]
    constructor
    · rintro ⟨string, ⟨hpushed, hchars⟩, rfl⟩
      exact ⟨by simp [contents, Contents.appendData, hmode, hchars], hpushed⟩
    · rintro ⟨hcontents, hpushed⟩
      have hchars : packet'.sqlString.chars = packet.sqlString.chars ++ bytes := by
        have hsql := congrArg Contents.sql hcontents
        simpa [contents, Contents.appendData, hmode] using hsql
      refine ⟨packet'.sqlString, ⟨hpushed, hchars⟩,
        eq_of_contents (Eq.trans ?_ hcontents.symm) rfl⟩
      simp [contents, Contents.appendData, hmode, hchars]

/-- **Collecting a byte.** -/
theorem collectData_ok_iff {b : UInt8} {packet packet' : FromClientFields} :
    packet.collectData b = .ok packet' ↔
      packet'.contents = packet.contents.appendData [b] ∧
        pushCapacity packet.sqlDataReceiving packet.sqlString.chars.length
          packet.sqlString.capacity = .ok packet'.sqlString.capacity := by
  rw [← pushAllCapacity_one, ← Fallible.run_singleton (fun packet b => collectData b packet)]
  exact collectAll_ok_iff

theorem collectData_error_iff {b : UInt8} {packet : FromClientFields} {e : Exception} :
    packet.collectData b = .error e ↔
      ∃ failure, pushCapacity packet.sqlDataReceiving packet.sqlString.chars.length
        packet.sqlString.capacity = .error failure ∧ e = .ofString failure := by
  unfold collectData pushCapacity
  cases hmode : packet.sqlDataReceiving with
  | false => simp
  | true =>
    simp only [if_true, Fallible.bind_error_iff, throwing_error_iff, pushBack_error_iff,
      reduceCtorEq, and_false, exists_false, or_false]

theorem collectAll_granted {bytes : List UInt8} {packet : FromClientFields} {capacity : Nat}
    (h : pushAllCapacity packet.sqlDataReceiving packet.sqlString.chars.length
      packet.sqlString.capacity bytes.length = .ok capacity) :
    ∃ collected, packet.collectAll bytes = .ok collected ∧
      collected.contents = packet.contents.appendData bytes ∧
        collected.sqlString.capacity = capacity := by
  have hroom : (packet.contents.appendData bytes).sql.length ≤ capacity := by
    have hle := packet.sqlString.length_le
    cases hmode : packet.sqlDataReceiving with
    | false =>
      rw [hmode] at h
      rw [← Except.ok.inj h]
      simpa [Contents.appendData, contents, hmode] using hle
    | true =>
      rw [hmode] at h
      have hpushed := le_of_pushed hle h
      simpa [Contents.appendData, contents, hmode] using hpushed
  obtain ⟨collected, hcontents, rfl⟩ := exists_of_contents _ hroom
  exact ⟨collected, collectAll_ok_iff.mpr ⟨hcontents, h⟩, hcontents, rfl⟩

end FromClientFields
end Proxy
