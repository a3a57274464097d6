import Custody.Json.Number
/-!
# Tokens

The words of a JSON text and how each is written. A string is written with the short escapes where
there is one, other control characters as a code in four lower-case hexadecimal digits, and all
else as it is.
-/

namespace Custody.Json

/-- A word of a text. -/
inductive Token
  | openBrace
  | closeBrace
  | openBracket
  | closeBracket
  | comma
  | colon
  | null
  | bool (b : Bool)
  | number (x : Number)
  /-- A string, or none where its escapes name half of a surrogate pair. -/
  | string (s : Option String)
  /-- The text stops being JSON here. -/
  | invalid
  deriving DecidableEq, Repr

/-- A hexadecimal digit. -/
def hexChar (k : Nat) : Char :=
  if k < 10 then Char.ofNat (48 + k) else Char.ofNat (87 + k)

/-- A character as it is written inside a string. -/
def escape (c : Char) : List Char :=
  if c = '"' then ['\\', '"']
  else if c = '\\' then ['\\', '\\']
  else if c = '\x08' then ['\\', 'b']
  else if c = '\x0c' then ['\\', 'f']
  else if c = '\n' then ['\\', 'n']
  else if c = '\r' then ['\\', 'r']
  else if c = '\t' then ['\\', 't']
  else if c.toNat < 32 then ['\\', 'u', '0', '0', hexChar (c.toNat / 16), hexChar (c.toNat % 16)]
  else [c]

/-- The characters of a string between its quotes, and the quotes. -/
def quoted (s : String) : List Char :=
  '"' :: s.toList.flatMap escape ++ ['"']

/-- The characters of a token. -/
def Token.chars : Token → List Char
  | openBrace => ['{']
  | closeBrace => ['}']
  | openBracket => ['[']
  | closeBracket => [']']
  | comma => [',']
  | colon => [':']
  | null => ['n', 'u', 'l', 'l']
  | bool true => ['t', 'r', 'u', 'e']
  | bool false => ['f', 'a', 'l', 's', 'e']
  | number x => x.chars
  | string s => quoted (s.getD "")
  | invalid => []

end Custody.Json
