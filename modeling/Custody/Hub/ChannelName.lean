import Custody.Error
import Custody.Text.Blank
/-!
# Channel names

A channel name is a text of one to 256 bytes without blank or control characters.
-/

namespace Custody

namespace ChannelName

/-- The largest number of bytes of a channel name. -/
def maxLength : Nat := 256

/-- Why a text is no channel name. -/
inductive Fault
  | empty
  | tooLong
  | badCharacter (name : String)
  deriving DecidableEq, Repr

/-- The text of a fault. -/
def Fault.message : Fault → String
  | empty => "empty channel name"
  | tooLong => s!"channel name longer than {maxLength} bytes"
  | badCharacter name => name

/-- The first rule that a text breaks. -/
def fault? (name : String) : Option Fault :=
  if name = "" then some .empty
  else if maxLength < name.utf8ByteSize then some .tooLong
  else if name.toList.any fun c => Text.isBlank c || Text.isControl c then
    some (.badCharacter name)
  else none

/-- The text is a channel name. -/
def Valid (name : String) : Prop :=
  name ≠ "" ∧ name.utf8ByteSize ≤ maxLength ∧
    ∀ c ∈ name.toList, Text.isBlank c = false ∧ Text.isControl c = false

theorem fault?_eq_none_iff {name : String} : fault? name = none ↔ Valid name := by
  unfold fault? Valid
  grind

end ChannelName

/-- Why the hub refuses an operation. -/
inductive BrokerError
  | invalidChannel (reason : String)
  | internal (reason : String)
  deriving DecidableEq, Repr

namespace BrokerError

/-- The line shown to a caller. -/
def message : BrokerError → String
  | invalidChannel reason => "Invalid channel name: " ++ reason
  | internal reason => "Internal error: " ++ reason

/-- The error of a ceremony that meets this one. -/
def toError (e : BrokerError) : Error :=
  .broker e.message

/-- The error of a channel name that breaks a rule. -/
def ofFault (fault : ChannelName.Fault) : BrokerError :=
  .invalidChannel fault.message

end BrokerError

end Custody
