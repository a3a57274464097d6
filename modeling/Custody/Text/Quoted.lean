import Custody.Text.Hex
import Custody.Text.Printable
/-!
# Quoted text for diagnostics

Diagnostics show a string between double quotes and a character between single quotes, so that its
extent is visible. The quote that delimits, the backslash, the usual control characters and NUL are
written with a backslash; a character without a visible form, or one that would attach itself to
the quote before it, is written as its code point in braces.
-/

namespace Custody.Text

/-- The hexadecimal digits of a number, without leading zeros. -/
def hexDigits (k : Nat) : List Char :=
  Nat.toDigits 16 k

/-- A character inside quotes of the given kind. -/
def escaped (delimiter : Char) (c : Char) : List Char :=
  if c = '\x00' then ['\\', '0']
  else if c = '\t' then ['\\', 't']
  else if c = '\r' then ['\\', 'r']
  else if c = '\n' then ['\\', 'n']
  else if c = '\\' ∨ c = delimiter then ['\\', c]
  else if isExtending c || !isPrintable c then
    ['\\', 'u', '{'] ++ hexDigits c.toNat ++ ['}']
  else [c]

/-- A string between double quotes. -/
def quote (text : String) : String :=
  String.ofList ('"' :: text.toList.flatMap (escaped '"') ++ ['"'])

/-- A character between single quotes. -/
def quoteChar (c : Char) : String :=
  String.ofList ('\'' :: escaped '\'' c ++ ['\''])

/-- The text of a fault in hexadecimal text. The byte that is no digit is shown as the character
with its number. -/
def Hex.Fault.message : Hex.Fault → String
  | .oddLength => "Odd number of digits"
  | .badDigit byte position =>
    s!"Invalid character {quoteChar (Char.ofNat byte.toNat)} at position {position}"

end Custody.Text
