import Custody.Text.Hex
/-!
# Percent-encoded text

A percent sign and two hexadecimal digits stand for a byte; every other byte, a percent sign
without two digits included, stands for itself. A segment names a text when the bytes it stands
for are UTF-8. Writing puts the bytes of some characters in this form and leaves the rest alone.
-/

namespace Custody.Text.Percent

/-- The bytes that a segment stands for. -/
def decodeBytes : Bytes → Bytes
  | [] => []
  | 37 :: x :: y :: rest =>
    match Hex.value? x, Hex.value? y with
    | some high, some low => UInt8.ofNat (high * 16 + low) :: decodeBytes rest
    | _, _ => 37 :: decodeBytes (x :: y :: rest)
  | x :: rest => x :: decodeBytes rest

/-- The text that a segment names, if the bytes it stands for are UTF-8. -/
def decode? (segment : String) : Option String :=
  String.fromUTF8? (ByteArray.mk (decodeBytes segment.toUTF8.toList).toArray)

/-- The capital digit of a number below sixteen. -/
def capitalDigit (k : Nat) : Char :=
  if k < 10 then Char.ofNat (48 + k) else Char.ofNat (55 + k)

/-- The written form of a byte. -/
def encodeByte (x : UInt8) : List Char :=
  ['%', capitalDigit (x.toNat / 16), capitalDigit (x.toNat % 16)]

/-- Writes a text in which some characters stand for themselves. -/
def encode (keeps : Char → Bool) (text : List Char) : List Char :=
  text.flatMap fun c =>
    if keeps c then [c] else (String.singleton c).toUTF8.toList.flatMap encodeByte

end Custody.Text.Percent
