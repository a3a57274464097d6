import Custody.Error
/-!
# Party sets and thresholds

A ceremony is run by a set of parties, of which a threshold must take part. A list of parties and a
threshold are fit for use (`Parties.Valid`) when the list is not empty and names nobody twice, and
the threshold is between one and the number of parties. `Parties.fault?` finds the first rule that
is broken; there is none exactly when they are fit (`Parties.fault?_eq_none_iff`).
-/

namespace Custody

/-- The number of a party. -/
abbrev PartyId := UInt32

namespace Parties

/-- Why a list of parties and a threshold are refused. -/
inductive Fault
  | empty
  | duplicates
  | thresholdTooSmall
  | thresholdTooLarge
  deriving DecidableEq, Repr

/-- The text of a fault. -/
def Fault.message : Fault → String
  | empty => "Party set cannot be empty"
  | duplicates => "Party set contains duplicates"
  | thresholdTooSmall => "Threshold must be at least 1"
  | thresholdTooLarge => "Threshold cannot exceed number of parties"

/-- The error that a fault is for a caller. -/
def Fault.toError (fault : Fault) : Error :=
  .invalidConfig fault.message

/-- The list and the threshold are fit for a ceremony. -/
def Valid (parties : List PartyId) (threshold : UInt32) : Prop :=
  parties ≠ [] ∧ parties.Nodup ∧ 1 ≤ threshold.toNat ∧ threshold.toNat ≤ parties.length

/-- The first rule that the list and the threshold break. -/
def fault? (parties : List PartyId) (threshold : UInt32) : Option Fault :=
  if parties = [] then some .empty
  else if ¬ parties.Nodup then some .duplicates
  else if threshold.toNat < 1 then some .thresholdTooSmall
  else if parties.length < threshold.toNat then some .thresholdTooLarge
  else none

theorem fault?_eq_none_iff {parties : List PartyId} {threshold : UInt32} :
    fault? parties threshold = none ↔ Valid parties threshold := by
  unfold fault? Valid
  grind

end Parties

end Custody
