import Custody.Ecdsa.Pair
/-!
# Distinguished encoding of signature pairs

A pair is written as a SEQUENCE of two INTEGERs. Every length and every number has one encoding,
the shortest; `Der.write` produces it, and `Der.read?` accepts it and nothing else: no long form of
a short length, no padded or negative number, nothing after the second number or after the
sequence.
-/

namespace Custody.Ecdsa.Der

/-- The tag of an INTEGER. -/
def integerTag : UInt8 := 0x02

/-- The tag of a SEQUENCE. -/
def sequenceTag : UInt8 := 0x30

/-! ## Writing -/

/-- A length: one byte below 128, else the number of its digits and the digits. -/
def writeLength (length : Nat) : Bytes :=
  if length < 128 then
    [UInt8.ofNat length]
  else
    UInt8.ofNat (128 + (Bytes.digits length).length) :: Bytes.digits length

/-- An element: tag, length and contents. -/
def writeElement (tag : UInt8) (contents : Bytes) : Bytes :=
  tag :: writeLength contents.length ++ contents

/-- The contents of an INTEGER that is not negative: its digits, with a zero in front where the
first would read as a sign. -/
def integerContents (k : Nat) : Bytes :=
  match Bytes.digits k with
  | [] => [0]
  | first :: rest => if first < 128 then first :: rest else 0 :: first :: rest

/-- The encoding of a pair. -/
def write (pair : Pair) : Bytes :=
  writeElement sequenceTag
    (writeElement integerTag (integerContents pair.r) ++
      writeElement integerTag (integerContents pair.s))

/-! ## Reading -/

/-- Reads a length in its shortest form, of at most four digits. -/
def readLength? : Bytes → Option (Nat × Bytes)
  | [] => none
  | first :: rest =>
    if first < 128 then
      some (first.toNat, rest)
    else
      let count := first.toNat - 128
      let length := Bytes.toNat (rest.take count)
      if count ≤ 4 ∧ count ≤ rest.length ∧ 128 ≤ length ∧ Bytes.bound (count - 1) ≤ length then
        some (length, rest.drop count)
      else
        none

/-- Reads an element with the given tag: its contents and what follows it. -/
def readElement? (tag : UInt8) : Bytes → Option (Bytes × Bytes)
  | [] => none
  | first :: rest =>
    if first = tag then
      match readLength? rest with
      | none => none
      | some (length, rest) =>
        if length ≤ rest.length then some (rest.take length, rest.drop length) else none
    else
      none

/-- The number that the contents of an INTEGER stand for, if it is not negative, written without
padding and below `Bytes.bound 32`. -/
def integerValue? : Bytes → Option Nat
  | [] => none
  | first :: rest =>
    if 128 ≤ first then
      none
    else if first = 0 ∧ rest ≠ [] then
      if 128 ≤ rest.headD 0 ∧ rest.length ≤ 32 then some (Bytes.toNat rest) else none
    else if rest.length < 32 then
      some (Bytes.toNat (first :: rest))
    else
      none

/-- Reads an INTEGER that is not negative, and what follows it. -/
def readInteger? (text : Bytes) : Option (Nat × Bytes) := do
  let (contents, rest) ← readElement? integerTag text
  let value ← integerValue? contents
  return (value, rest)

/-- Reads the encoding of a pair, with both numbers in range. -/
def read? (text : Bytes) : Option Pair := do
  let (contents, after) ← readElement? sequenceTag text
  let (r, rest) ← readInteger? contents
  let (s, rest) ← readInteger? rest
  if rest = [] ∧ after = [] then Pair.ofNat? r s else none

end Custody.Ecdsa.Der
