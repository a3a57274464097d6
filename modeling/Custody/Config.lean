import Custody.Session.Request
/-!
# Configuration of ceremonies

What all ceremonies of a coordinator share: the parties, the threshold, the deadline and the order
of subscription and trigger. A configuration may be read from a text without being fit for use;
`Config.fault?` finds the first rule that it breaks. Deadlines are kept in nanoseconds and written
in whole milliseconds.
-/

namespace Custody

open Json

/-- The settings that all ceremonies of a coordinator share. -/
structure Config where
  parties : List PartyId
  threshold : UInt32
  /-- How long a ceremony may take, trigger and subscription included, in nanoseconds. -/
  timeout : Nat
  /-- Open the subscription before the trigger is sent. -/
  subscribeFirst : Bool
  deriving DecidableEq, Repr

namespace Config

/-- The nanoseconds of a millisecond. -/
def milli : Nat := 1000000

/-- The nanoseconds of a second. -/
def second : Nat := 1000000000

/-- The longest deadline: a day. -/
def maxTimeout : Nat := 24 * 60 * 60 * second

/-- Two of the parties 1, 2 and 3 within five minutes, trigger first. -/
def standard : Config where
  parties := [1, 2, 3]
  threshold := 2
  timeout := 5 * 60 * second
  subscribeFirst := false

/-- Why a configuration is refused. -/
inductive Fault
  | parties (fault : Parties.Fault)
  | timeoutZero
  | timeoutTooLong
  deriving DecidableEq, Repr

/-- The text of a fault. -/
def Fault.message : Fault → String
  | parties fault => fault.message
  | timeoutZero => "Ceremony timeout must be positive"
  | timeoutTooLong => s!"Ceremony timeout cannot exceed {maxTimeout / second}s"

/-- The error that a fault is for a caller. -/
def Fault.toError (fault : Fault) : Error :=
  .invalidConfig fault.message

/-- The first rule that a configuration breaks. -/
def fault? (config : Config) : Option Fault :=
  match Parties.fault? config.parties config.threshold with
  | some fault => some (.parties fault)
  | none =>
    if config.timeout = 0 then some .timeoutZero
    else if maxTimeout < config.timeout then some .timeoutTooLong
    else none

/-- The configuration is fit for use. -/
def Valid (config : Config) : Prop :=
  Parties.Valid config.parties config.threshold ∧ 0 < config.timeout ∧
    config.timeout ≤ maxTimeout

theorem fault?_eq_none_iff {config : Config} : config.fault? = none ↔ config.Valid := by
  unfold fault? Valid
  rw [← Parties.fault?_eq_none_iff]
  grind

/-- The standard configuration for other parties, if it is fit for use. -/
def ofParties (parties : List PartyId) (threshold : UInt32) : Except Fault Config :=
  let config := { standard with parties, threshold }
  match config.fault? with
  | some fault => .error fault
  | none => .ok config

/-! ## Wire form -/

/-- The value that a configuration is written as. There is none where the milliseconds of the
deadline do not fit into 64 bits. -/
def toValue? (config : Config) : Option Value :=
  let millis := config.timeout / milli
  if millis < UInt64.size then
    some (.object
      [("parties", .array (config.parties.map fun p => .nat p.toNat)),
        ("threshold", .nat config.threshold.toNat),
        ("ceremony_timeout", .nat millis),
        ("subscribe_before_trigger", .bool config.subscribeFirst)])
  else
    none

/-- The text of a configuration. -/
def render? (config : Config) : Option String :=
  config.toValue?.map Value.render

/-- A deadline in milliseconds. -/
def timeout? (t : Tree) : Option Nat :=
  (t.natBelow? UInt64.size).map (· * milli)

/-- The fields of a configuration. -/
def fields : List Field :=
  [⟨"parties", fun t => (t.array? ActionRequest.word32?).isSome, false⟩,
    ⟨"threshold", fun t => (ActionRequest.word32? t).isSome, false⟩,
    ⟨"ceremony_timeout", fun t => (timeout? t).isSome, false⟩,
    ⟨"subscribe_before_trigger", fun t => t.bool?.isSome, true⟩]

/-- Reads a configuration, which need not be fit for use. -/
def ofTree (t : Tree) : Except Json.Fault Config := do
  let found ← t.record fields
  match found.get? "parties" (Tree.array? ActionRequest.word32?),
      found.get? "threshold" ActionRequest.word32?, found.get? "ceremony_timeout" timeout? with
  | some parties, some threshold, some timeout =>
    return {
      parties, threshold, timeout
      subscribeFirst := (found.get? "subscribe_before_trigger" Tree.bool?).getD false }
  | _, _, _ => throw .mismatch

end Config

end Custody
