import Custody.Bytes
/-!
# Hexadecimal text

Bytes are written as two lower-case digits each and read from digits of either case. Reading
refuses an odd number of characters first, and then the first character that is no digit.
-/

namespace Custody.Text.Hex

/-- Why a text is not hexadecimal. -/
inductive Fault
  /-- The number of bytes in the text is odd. -/
  | oddLength
  /-- The byte at this position is no digit. -/
  | badDigit (byte : UInt8) (position : Nat)
  deriving DecidableEq, Repr

/-- The lower-case digit of a number below sixteen. -/
def digit (k : Nat) : Char :=
  if k < 10 then Char.ofNat (48 + k) else Char.ofNat (87 + k)

/-- Two digits for each byte. -/
def encodeChars (b : Bytes) : List Char :=
  b.flatMap fun x => [digit (x.toNat / 16), digit (x.toNat % 16)]

/-- The lower-case text of a byte string. -/
def encode (b : Bytes) : String :=
  String.ofList (encodeChars b)

/-- The value of a digit of either case. -/
def value? (x : UInt8) : Option Nat :=
  let code := x.toNat
  if 48 ≤ code ∧ code ≤ 57 then some (code - 48)
  else if 97 ≤ code ∧ code ≤ 102 then some (code - 87)
  else if 65 ≤ code ∧ code ≤ 70 then some (code - 55)
  else none

/-- Reads pairs of digits, the first of which stands at the given position. -/
def decodePairs (position : Nat) : Bytes → Except Fault Bytes
  | x :: y :: rest =>
    match value? x with
    | none => .error (.badDigit x position)
    | some high =>
      match value? y with
      | none => .error (.badDigit y (position + 1))
      | some low => (UInt8.ofNat (high * 16 + low) :: ·) <$> decodePairs (position + 2) rest
  | _ => .ok []

/-- Reads a byte string from the bytes of its text. -/
def decodeBytes (text : Bytes) : Except Fault Bytes :=
  if text.length % 2 = 1 then .error .oddLength else decodePairs 0 text

/-- Reads a byte string from its text. -/
def decode (text : String) : Except Fault Bytes :=
  decodeBytes text.toUTF8.toList

end Custody.Text.Hex
