import Custody.Signature
import Custody.Text.Quoted
/-!
# Digests as arguments

A digest is given as 64 hexadecimal digits of either case. Any number of marks `0x` may stand in
front of them.
-/

namespace Custody.Wallet.Digest

/-- Why a text is no digest. -/
inductive Fault
  | notHex (fault : Text.Hex.Fault)
  /-- The digits do not write 32 bytes. -/
  | wrongLength
  deriving DecidableEq, Repr

/-- The text of a fault. -/
def Fault.message : Fault → String
  | notHex fault => fault.message
  | wrongLength => s!"Hash must be {hashLength} bytes"

/-- A text without the marks in front of it. -/
def afterMarks : List Char → List Char
  | '0' :: 'x' :: rest => afterMarks rest
  | chars => chars

/-- Reads a digest. -/
def ofText (text : String) : Except Fault Bytes :=
  match Text.Hex.decode (String.ofList (afterMarks text.toList)) with
  | .error fault => .error (.notHex fault)
  | .ok bytes => if bytes.length = hashLength then .ok bytes else .error .wrongLength

end Custody.Wallet.Digest
