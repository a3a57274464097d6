import Custody.Bytes
/-!
# Base64 text

The standard alphabet with padding. Three bytes are written as four symbols; a rest of one or two
bytes as two or three symbols and padding up to four characters. Only canonical text is read:
padding must be present, and the bits of the last symbol that carry no data must be zero, so a byte
string has one written form.

A text that is refused has one cause, and the causes are looked for in a fixed order: a length that
no text has, then, in blocks of eight characters, the first character that may not stand where it
stands, then the padding, then the spare bits.
-/

namespace Custody.Text.Base64

/-- Why a text is not canonical Base64. Bytes and offsets refer to the text. -/
inductive Fault
  /-- The byte may not stand at this offset. -/
  | invalidByte (byte : UInt8) (offset : Nat)
  /-- One symbol is left over, which carries no byte. -/
  | invalidLength
  /-- The spare bits of the last symbol are not zero. -/
  | invalidLastSymbol (byte : UInt8) (offset : Nat)
  /-- The padding is missing or has the wrong length. -/
  | invalidPadding
  deriving DecidableEq, Repr

/-- The text of a fault. -/
def Fault.message : Fault → String
  | .invalidByte byte offset => s!"Invalid byte {byte.toNat}, offset {offset}."
  | .invalidLength => "Encoded text cannot have a 6-bit remainder."
  | .invalidLastSymbol byte offset => s!"Invalid last symbol {byte.toNat}, offset {offset}."
  | .invalidPadding => "Invalid padding"

/-- The symbol of a number below 64. -/
def symbol (k : Nat) : Char :=
  if k < 26 then Char.ofNat (65 + k)
  else if k < 52 then Char.ofNat (71 + k)
  else if k < 62 then Char.ofNat (k - 4)
  else if k = 62 then '+'
  else '/'

/-- Writes bytes as symbols and padding. -/
def encodeChars : Bytes → List Char
  | [] => []
  | [a] =>
    let w := a.toNat * 16
    [symbol (w / 64), symbol (w % 64), '=', '=']
  | [a, b] =>
    let w := (a.toNat * 256 + b.toNat) * 4
    [symbol (w / 4096), symbol (w / 64 % 64), symbol (w % 64), '=']
  | a :: b :: c :: rest =>
    let w := (a.toNat * 256 + b.toNat) * 256 + c.toNat
    symbol (w / 262144) :: symbol (w / 4096 % 64) :: symbol (w / 64 % 64) :: symbol (w % 64) ::
      encodeChars rest

/-- The text of a byte string. -/
def encode (b : Bytes) : String :=
  String.ofList (encodeChars b)

/-- The number of a symbol. -/
def value? (x : UInt8) : Option Nat :=
  let code := x.toNat
  if 65 ≤ code ∧ code ≤ 90 then some (code - 65)
  else if 97 ≤ code ∧ code ≤ 122 then some (code - 71)
  else if 48 ≤ code ∧ code ≤ 57 then some (code + 4)
  else if code = 43 then some 62
  else if code = 47 then some 63
  else none

/-- The padding character. -/
def padding : UInt8 := 61

/-- Reads symbols only, the first of which stands at the given offset. -/
def symbols (offset : Nat) : Bytes → Except Fault (List Nat)
  | [] => .ok []
  | x :: rest =>
    match value? x with
    | none => .error (.invalidByte x offset)
    | some k => (k :: ·) <$> symbols (offset + 1) rest

/-- What the last block holds: its symbols and how many padding characters follow them. -/
structure Tail where
  symbols : List Nat
  pads : Nat
  deriving DecidableEq, Repr

/-- Reads the last block, which starts at offset `start`. Padding may stand at the third and fourth
place of a group of four only, and nothing but padding after padding; a fault about padding points
at the first padding character of the block. `index` is the place in the block, and `first` the
place of the first padding character read so far. -/
def lastBlock (start index : Nat) (first : Option Nat) : Bytes → Except Fault Tail
  | [] => .ok ⟨[], 0⟩
  | x :: rest =>
    if x = padding then
      let place := first.getD index
      if index % 4 < 2 then
        .error (.invalidByte padding (start + place))
      else
        (fun tail => { tail with pads := tail.pads + 1 }) <$>
          lastBlock start (index + 1) (some place) rest
    else
      match first with
      | some place => .error (.invalidByte padding (start + place))
      | none =>
        match value? x with
        | none => .error (.invalidByte x (start + index))
        | some k =>
          (fun tail => { tail with symbols := k :: tail.symbols }) <$>
            lastBlock start (index + 1) none rest

/-- The bytes that groups of four symbols carry. A rest of three symbols carries two bytes and a
rest of two carries one; the spare bits are dropped. -/
def bytesOf : List Nat → Bytes
  | a :: b :: c :: d :: rest =>
    let w := ((a * 64 + b) * 64 + c) * 64 + d
    UInt8.ofNat (w / 65536) :: UInt8.ofNat (w / 256) :: UInt8.ofNat w :: bytesOf rest
  | [a, b, c] =>
    let w := ((a * 64 + b) * 64 + c) / 4
    [UInt8.ofNat (w / 256), UInt8.ofNat w]
  | [a, b] => [UInt8.ofNat ((a * 64 + b) / 16)]
  | _ => []

/-- The spare bits of the last symbol. -/
def spareBits (syms : List Nat) : Nat :=
  match syms.length % 4 with
  | 2 => syms.getLastD 0 % 16
  | 3 => syms.getLastD 0 % 4
  | _ => 0

/-- Reads a byte string from the bytes of its text. -/
def decodeBytes (text : Bytes) : Except Fault Bytes :=
  let length := text.length
  if length % 4 = 1 then
    let last := text.getLastD 0
    if last = padding ∨ (value? last).isSome then .error .invalidLength
    else .error (.invalidByte last (length - 1))
  else
    let start := (length - 1) / 8 * 8
    match symbols 0 (text.take start) with
    | .error fault => .error fault
    | .ok front =>
      match lastBlock start 0 none (text.drop start) with
      | .error fault => .error fault
      | .ok tail =>
        let all := front ++ tail.symbols
        if (tail.symbols.length + tail.pads) % 4 ≠ 0 then .error .invalidPadding
        else if spareBits all ≠ 0 then
          .error (.invalidLastSymbol (text.getD (all.length - 1) 0) (all.length - 1))
        else .ok (bytesOf all)

/-- Reads a byte string from its text. -/
def decode (text : String) : Except Fault Bytes :=
  decodeBytes text.toUTF8.toList

end Custody.Text.Base64
