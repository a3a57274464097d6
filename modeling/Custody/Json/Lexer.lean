import Custody.Json.Token
/-!
# Splitting a text into tokens

A machine that takes one character at a time (`Lexer.step`) and keeps the tokens it has completed.
It stops at the first character that no token can have at its place; the tokens before that stay,
followed by `Token.invalid`, so that a reader can tell what came first.
-/

namespace Custody.Json.Lexer

/-- How far a number has been read. -/
inductive Part
  | sign
  | zero
  | whole
  | point
  | fraction
  | mark
  | exponentSign
  | exponent
  deriving DecidableEq, Repr

/-- The number may end after this part. -/
def Part.mayEnd : Part → Bool
  | zero | whole | fraction | exponent => true
  | _ => false

/-- A string that is being read. -/
structure Draft where
  /-- The characters read, last first. -/
  chars : List Char
  /-- No half of a surrogate pair has been met. -/
  proper : Bool
  deriving DecidableEq, Repr

/-- Where the machine is. -/
inductive State
  /-- Between two tokens. -/
  | between
  /-- Inside a word, of which these characters remain. -/
  | word (rest : List Char) (token : Token)
  /-- Inside a number; its digits are kept last first. -/
  | number (part : Part) (x : Number)
  /-- Inside a string. -/
  | text (draft : Draft)
  /-- After a backslash. -/
  | escape (draft : Draft)
  /-- Inside a code of four digits; `high` is the surrogate before it that waits for its half. -/
  | code (draft : Draft) (high : Option Nat) (digits value : Nat)
  /-- After a surrogate that waits for its half. -/
  | half (draft : Draft) (high : Nat)
  /-- After such a surrogate and a backslash. -/
  | halfEscape (draft : Draft) (high : Nat)
  /-- The text is no JSON. -/
  | stopped
  deriving DecidableEq, Repr

/-- The machine: where it is, and the tokens completed, last first. -/
structure Machine where
  state : State
  done : List Token
  deriving DecidableEq, Repr

/-- Spaces that may stand between tokens. -/
def isSpace (c : Char) : Bool :=
  c = ' ' || c = '\t' || c = '\n' || c = '\r'

/-- The value of a digit in base ten. -/
def digit? (c : Char) : Option Nat :=
  if '0' ≤ c ∧ c ≤ '9' then some (c.toNat - 48) else none

/-- The value of a digit in base sixteen. -/
def hexDigit? (c : Char) : Option Nat :=
  if '0' ≤ c ∧ c ≤ '9' then some (c.toNat - 48)
  else if 'a' ≤ c ∧ c ≤ 'f' then some (c.toNat - 87)
  else if 'A' ≤ c ∧ c ≤ 'F' then some (c.toNat - 55)
  else none

/-- The first character of a token. -/
def start (c : Char) (done : List Token) : Machine :=
  if isSpace c then ⟨.between, done⟩
  else if c = '{' then ⟨.between, .openBrace :: done⟩
  else if c = '}' then ⟨.between, .closeBrace :: done⟩
  else if c = '[' then ⟨.between, .openBracket :: done⟩
  else if c = ']' then ⟨.between, .closeBracket :: done⟩
  else if c = ',' then ⟨.between, .comma :: done⟩
  else if c = ':' then ⟨.between, .colon :: done⟩
  else if c = '"' then ⟨.text ⟨[], true⟩, done⟩
  else if c = 'n' then ⟨.word ['u', 'l', 'l'] .null, done⟩
  else if c = 't' then ⟨.word ['r', 'u', 'e'] (.bool true), done⟩
  else if c = 'f' then ⟨.word ['a', 'l', 's', 'e'] (.bool false), done⟩
  else if c = '-' then ⟨.number .sign ⟨true, [], [], none⟩, done⟩
  else
    match digit? c with
    | some 0 => ⟨.number .zero ⟨false, [0], [], none⟩, done⟩
    | some d => ⟨.number .whole ⟨false, [d], [], none⟩, done⟩
    | none => ⟨.stopped, done⟩

/-- The number with its digits in the order of the text. -/
def finished (x : Number) : Number :=
  { x with
    whole := x.whole.reverse
    fraction := x.fraction.reverse
    exponent := x.exponent.map fun e => (e.1, e.2.reverse) }

/-- How a number goes on with a character, if it does. -/
def continue? (part : Part) (x : Number) (c : Char) : Option (Part × Number) :=
  match digit? c with
  | some d =>
    match part with
    | .sign => some (if d = 0 then .zero else .whole, { x with whole := [d] })
    | .zero => none
    | .whole => some (.whole, { x with whole := d :: x.whole })
    | .point | .fraction => some (.fraction, { x with fraction := d :: x.fraction })
    | .mark => some (.exponent, { x with exponent := some (false, [d]) })
    | .exponentSign | .exponent =>
      some (.exponent, { x with exponent := x.exponent.map fun e => (e.1, d :: e.2) })
  | none =>
    if c = '.' then
      if part = .zero ∨ part = .whole then some (.point, x) else none
    else if c = 'e' ∨ c = 'E' then
      if part = .zero ∨ part = .whole ∨ part = .fraction then some (.mark, x) else none
    else if c = '+' ∨ c = '-' then
      if part = .mark then some (.exponentSign, { x with exponent := some (c = '-', []) }) else none
    else
      none

/-- A character inside a number. A number ends before the first character that it cannot hold,
unless that is one more digit after a leading zero. -/
def stepNumber (part : Part) (x : Number) (c : Char) (done : List Token) : Machine :=
  match continue? part x c with
  | some (part, x) => ⟨.number part x, done⟩
  | none =>
    if part.mayEnd && (digit? c).isNone then start c (.number (finished x) :: done)
    else ⟨.stopped, done⟩

/-- The string with one more character. -/
def Draft.push (draft : Draft) (c : Char) : Draft :=
  { draft with chars := c :: draft.chars }

/-- The string after half of a surrogate pair, which names no character. -/
def Draft.spoil (draft : Draft) : Draft :=
  { draft with proper := false }

/-- The token of a string that has been read. -/
def Draft.token (draft : Draft) : Token :=
  .string (if draft.proper then some (String.ofList draft.chars.reverse) else none)

/-- A character inside a string. -/
def stepText (draft : Draft) (c : Char) (done : List Token) : Machine :=
  if c = '"' then ⟨.between, draft.token :: done⟩
  else if c = '\\' then ⟨.escape draft, done⟩
  else if c.toNat < 32 then ⟨.stopped, done⟩
  else ⟨.text (draft.push c), done⟩

/-- The character that an escape of one letter names. -/
def escaped? (c : Char) : Option Char :=
  if c = '"' ∨ c = '\\' ∨ c = '/' then some c
  else if c = 'b' then some '\x08'
  else if c = 'f' then some '\x0c'
  else if c = 'n' then some '\n'
  else if c = 'r' then some '\r'
  else if c = 't' then some '\t'
  else none

/-- A character after a backslash. -/
def stepEscape (draft : Draft) (c : Char) (done : List Token) : Machine :=
  if c = 'u' then ⟨.code draft none 0 0, done⟩
  else
    match escaped? c with
    | some e => ⟨.text (draft.push e), done⟩
    | none => ⟨.stopped, done⟩

/-- The unit is the first half of a surrogate pair. -/
def isHigh (unit : Nat) : Bool :=
  0xD800 ≤ unit && unit < 0xDC00

/-- The unit is the second half of a surrogate pair. -/
def isLow (unit : Nat) : Bool :=
  0xDC00 ≤ unit && unit < 0xE000

/-- The state after a code of four digits. -/
def endCode (draft : Draft) (high : Option Nat) (unit : Nat) : State :=
  match high with
  | some high =>
    if isLow unit then
      .text (draft.push (Char.ofNat (0x10000 + (high - 0xD800) * 0x400 + (unit - 0xDC00))))
    else
      .text draft.spoil
  | none =>
    if isHigh unit then .half draft unit
    else if isLow unit then .text draft.spoil
    else .text (draft.push (Char.ofNat unit))

/-- A character inside a code of four digits. -/
def stepCode (draft : Draft) (high : Option Nat) (digits value : Nat) (c : Char)
    (done : List Token) : Machine :=
  match hexDigit? c with
  | none => ⟨.stopped, done⟩
  | some d =>
    if digits = 3 then ⟨endCode draft high (value * 16 + d), done⟩
    else ⟨.code draft high (digits + 1) (value * 16 + d), done⟩

/-- Takes one character. -/
def step (m : Machine) (c : Char) : Machine :=
  match m.state with
  | .between => start c m.done
  | .word [] token => start c (token :: m.done)
  | .word [last] token => if c = last then ⟨.between, token :: m.done⟩ else ⟨.stopped, m.done⟩
  | .word (next :: rest) token =>
    if c = next then ⟨.word rest token, m.done⟩ else ⟨.stopped, m.done⟩
  | .number part x => stepNumber part x c m.done
  | .text draft => stepText draft c m.done
  | .escape draft => stepEscape draft c m.done
  | .code draft high digits value => stepCode draft high digits value c m.done
  | .half draft high =>
    if c = '\\' then ⟨.halfEscape draft high, m.done⟩ else stepText draft.spoil c m.done
  | .halfEscape draft high =>
    if c = 'u' then ⟨.code draft (some high) 0 0, m.done⟩ else stepEscape draft.spoil c m.done
  | .stopped => m

/-- The tokens, once the text has ended. -/
def finish (m : Machine) : List Token :=
  match m.state with
  | .between => m.done.reverse
  | .number part x =>
    if part.mayEnd then (.number (finished x) :: m.done).reverse
    else (.invalid :: m.done).reverse
  | _ => (.invalid :: m.done).reverse

/-- The tokens of a text. -/
def tokens (text : List Char) : List Token :=
  finish (text.foldl step ⟨.between, []⟩)

end Custody.Json.Lexer
