/-!
# Numbers on a command line

Decimal numbers as they are written on a command line: a sign may stand in front, and then there
are ASCII digits only, at least one.
-/

namespace Custody.CommandLine

/-- The number that digits write, the first of which counts most. -/
def digitsValue (digits : List Char) : Nat :=
  digits.foldl (fun n c => n * 10 + (c.toNat - '0'.toNat)) 0

/-- The number that a text of digits writes. -/
def unsigned? (digits : List Char) : Option Nat :=
  if !digits.isEmpty && digits.all Char.isDigit then some (digitsValue digits) else none

/-- A number below a bound, with or without a plus sign. -/
def natBelow? (bound : Nat) (text : String) : Option Nat :=
  let digits := match text.toList with
    | '+' :: rest => rest
    | chars => chars
  match unsigned? digits with
  | some n => if n < bound then some n else none
  | none => none

/-- A number below a bound, with or without a sign. A minus sign is only right for zero. -/
def intBelow? (bound : Nat) (text : String) : Option Nat :=
  match text.toList with
  | '-' :: rest => if unsigned? rest = some 0 then some 0 else none
  | _ => natBelow? bound text

/-- The pieces of a text between commas. -/
def pieces (text : String) : List String :=
  text.splitOn ","

/-- What all pieces between commas are read as. -/
def listOf? {α : Type} (read : String → Option α) (text : String) : Option (List α) :=
  (pieces text).mapM read

end Custody.CommandLine
