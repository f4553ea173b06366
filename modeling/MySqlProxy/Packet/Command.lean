import MySqlProxy.Lib.BasicString
import Mathlib.Tactic.Common

/-!
# Connection states, commands and responses (`packet.hpp`, `packet.cpp`)

The vocabulary of the packet parser: `MySqlConnectionState`, `MySqlCommand` with its predicates
and its name table, `MySqlResponse`, and the exceptions the proxy throws. The C++ enumerations
have the underlying type `unsigned char` and are made by `static_cast` from any byte, so
`Command` wraps a byte and its enumerators are named constants of it.
-/

namespace Proxy

/-- What a handler of the proxy can throw. -/
inductive Exception where
  | runtimeError (what : String)
  | systemError (what : String)
  | ofString (failure : BasicString.Failure)
  deriving DecidableEq, Repr

/-- Connection states between the client and the MySQL server. -/
inductive MySqlConnectionState where
  | CONNECTION_PHASE
  | COMMAND_PHASE
  deriving DecidableEq, Repr

namespace MySqlCommand

/-- `enum class Command : unsigned char`. -/
structure Command where
  byte : UInt8
  deriving DecidableEq, Repr

namespace Command

@[match_pattern] def UNKNOWN : Command := ⟨0x00⟩
@[match_pattern] def COM_QUIT : Command := ⟨0x01⟩
@[match_pattern] def COM_INIT_DB : Command := ⟨0x02⟩
@[match_pattern] def COM_QUERY : Command := ⟨0x03⟩
@[match_pattern] def COM_FIELD_LIST : Command := ⟨0x04⟩
@[match_pattern] def COM_REFRESH : Command := ⟨0x07⟩
@[match_pattern] def COM_STATISTICS : Command := ⟨0x08⟩
@[match_pattern] def COM_PROCESS_INFO : Command := ⟨0x0A⟩
@[match_pattern] def COM_PROCESS_KILL : Command := ⟨0x0C⟩
@[match_pattern] def COM_DEBUG : Command := ⟨0x0D⟩
@[match_pattern] def COM_PING : Command := ⟨0x0E⟩
@[match_pattern] def COM_CHANGE_USER : Command := ⟨0x11⟩
@[match_pattern] def COM_RESET_CONNECTION : Command := ⟨0x1F⟩
@[match_pattern] def COM_STMT_PREPARE : Command := ⟨0x16⟩
@[match_pattern] def COM_STMT_EXECUTE : Command := ⟨0x17⟩
@[match_pattern] def COM_STMT_CLOSE : Command := ⟨0x19⟩
@[match_pattern] def COM_STMT_RESET : Command := ⟨0x1A⟩
@[match_pattern] def COM_STMT_SEND_LONG_DATA : Command := ⟨0x18⟩

end Command

open Command in
/-- Check if the command is valid. -/
def isValid (command : Command) : Bool :=
  match command with
  | COM_QUIT | COM_INIT_DB | COM_QUERY | COM_FIELD_LIST | COM_REFRESH | COM_STATISTICS
  | COM_PROCESS_INFO | COM_PROCESS_KILL | COM_DEBUG | COM_PING | COM_CHANGE_USER
  | COM_RESET_CONNECTION | COM_STMT_RESET | COM_STMT_PREPARE | COM_STMT_EXECUTE
  | COM_STMT_CLOSE | COM_STMT_SEND_LONG_DATA => true
  | _ => false

open Command in
/-- Check if the command has the SQL field string. -/
def hasSqlField (command : Command) : Bool :=
  match command with
  | COM_INIT_DB | COM_QUERY | COM_STMT_PREPARE => true
  | _ => false

open Command in
/-- Get the name string of the command. The length is read only where two commands share a
byte. -/
def name (command : Command) (payloadLength : Nat) : String :=
  match command with
  | COM_QUIT => "COM_QUIT"
  | COM_INIT_DB => "COM_INIT_DB"
  | COM_QUERY => "COM_QUERY"
  | COM_FIELD_LIST => "COM_FIELD_LIST"
  | COM_REFRESH => "COM_REFRESH"
  | COM_STATISTICS => "COM_STATISTICS"
  | COM_PROCESS_INFO => "COM_PROCESS_INFO"
  | COM_PROCESS_KILL => "COM_PROCESS_KILL"
  | COM_DEBUG => "COM_DEBUG"
  | COM_PING => "COM_PING"
  | COM_CHANGE_USER => "COM_CHANGE_USER"
  | COM_RESET_CONNECTION => "COM_RESET_CONNECTION"
  | COM_STMT_RESET =>
    match payloadLength with
    | 3 => "COM_SET_OPTION"
    | 5 => "COM_STMT_RESET"
    | _ => ""
  | COM_STMT_PREPARE => "COM_STMT_PREPARE"
  | COM_STMT_EXECUTE => "COM_STMT_EXECUTE"
  | COM_STMT_CLOSE =>
    match payloadLength with
    | 9 => "COM_STMT_FETCH"
    | 5 => "COM_STMT_CLOSE"
    | _ => ""
  | COM_STMT_SEND_LONG_DATA => "COM_STMT_SEND_LONG_DATA"
  | _ => ""

/-! ## The three tables agree

A command is named only when it is valid, and a command with an SQL field is always named. -/

/-- Only valid commands have a name. -/
theorem isValid_of_name_ne_empty {command : Command} {n : Nat} (h : name command n ≠ "") :
    isValid command = true := by
  unfold name at h
  unfold isValid
  split at h <;> simp_all

theorem name_eq_empty_of_not_isValid {command : Command} (n : Nat)
    (h : isValid command = false) : name command n = "" := by
  by_contra hne
  rw [isValid_of_name_ne_empty hne] at h
  exact absurd h (by simp)

theorem hasSqlField_of_not_isValid {command : Command} (h : isValid command = false) :
    hasSqlField command = false := by
  unfold isValid at h
  unfold hasSqlField
  split at h <;> simp_all

/-- A command with an SQL field has the same non-empty name at every length. -/
theorem name_of_hasSqlField {command : Command} (h : hasSqlField command = true) (n m : Nat) :
    name command n ≠ "" ∧ name command n = name command m := by
  unfold hasSqlField at h
  split at h
  · exact ⟨by simp [name], rfl⟩
  · exact ⟨by simp [name], rfl⟩
  · exact ⟨by simp [name], rfl⟩
  · exact absurd h (by simp)

end MySqlCommand

namespace MySqlResponse

/-- `enum class Response : unsigned char`. -/
inductive Response where
  | OK_PACKET
  | EOF_PACKET
  | ERR_PACKET
  | OTHER_PACKET
  deriving DecidableEq, Repr

/-- Get the response from the given 0-byte of the MySQL packet payload. -/
def getResponse (payload0 : UInt8) (payloadLength : Nat) : Response :=
  match payload0 with
  | 0x00 => if payloadLength > 3 then .OK_PACKET else .OTHER_PACKET
  | 0xFE => if payloadLength < 5 then .EOF_PACKET else .OTHER_PACKET
  | 0xFF => .ERR_PACKET
  | 0x01 => .OTHER_PACKET
  | _ => .OTHER_PACKET

/-- The response is an OK packet exactly for a zero byte in front of more than three bytes. -/
theorem getResponse_eq_ok_iff (payload0 : UInt8) (payloadLength : Nat) :
    getResponse payload0 payloadLength = .OK_PACKET ↔ payload0 = 0x00 ∧ 3 < payloadLength := by
  unfold getResponse
  split
  · simp
  · split <;> simp
  · simp
  · simp
  · simp_all

end MySqlResponse

end Proxy
