import Custody.Json.Tree
/-!
# Values

A value that a program builds from a text, or writes. Not every complete text has one: its
containers may be nested at most `maxDepth` deep, its strings must be made of characters, and its
numbers must be finite (`Tree.value?`).

A value is written without spaces (`Value.render`), or over several lines with two spaces for each
level of nesting (`Value.renderLines`).
-/

namespace Custody.Json

/-- A value. -/
inductive Value
  | null
  | bool (b : Bool)
  | number (x : Number)
  | string (s : String)
  | array (items : List Value)
  /-- The members in the order of the text. -/
  | object (members : List (String × Value))

/-- How deep containers may be nested in a value. -/
def maxDepth : Nat := 127

namespace Tree

mutual

/-- The value of a tree, whose containers may be nested `depth` deep. -/
def value? (depth : Nat) : Tree → Option Value
  | null => some .null
  | bool b => some (.bool b)
  | number x => if x.isFinite then some (.number x) else none
  | string s => s.map .string
  | array items => if depth = 0 then none else (values? (depth - 1) items).map .array
  | object members => if depth = 0 then none else (members? (depth - 1) members).map .object
  | cut => none

/-- The values of a list of trees. -/
def values? (depth : Nat) : List Tree → Option (List Value)
  | [] => some []
  | item :: rest =>
    match item.value? depth, values? depth rest with
    | some item, some rest => some (item :: rest)
    | _, _ => none

/-- The values of a list of members. -/
def members? (depth : Nat) : List (Option String × Tree) → Option (List (String × Value))
  | [] => some []
  | (name, value) :: rest =>
    match name, value.value? depth, members? depth rest with
    | some name, some value, some rest => some ((name, value) :: rest)
    | _, _, _ => none

end

end Tree

namespace Value

/-- The value of a text. -/
def ofText? (text : String) : Option Value :=
  (Tree.ofText text).value? maxDepth

/-- The number zero or above. -/
def nat (k : Nat) : Value :=
  number (.ofNat k)

mutual

/-- The tokens of a value. -/
def tokens : Value → List Token
  | null => [.null]
  | bool b => [.bool b]
  | number x => [.number x]
  | string s => [.string (some s)]
  | array [] => [.openBracket, .closeBracket]
  | array (item :: rest) => .openBracket :: item.tokens ++ itemTokens rest ++ [.closeBracket]
  | object [] => [.openBrace, .closeBrace]
  | object ((name, value) :: rest) =>
    .openBrace :: .string (some name) :: .colon :: value.tokens ++ memberTokens rest ++
      [.closeBrace]

/-- The tokens of further items of an array, with the commas before them. -/
def itemTokens : List Value → List Token
  | [] => []
  | item :: rest => .comma :: item.tokens ++ itemTokens rest

/-- The tokens of further members of an object, with the commas before them. -/
def memberTokens : List (String × Value) → List Token
  | [] => []
  | (name, value) :: rest =>
    .comma :: .string (some name) :: .colon :: value.tokens ++ memberTokens rest

end

/-- The text of a value, without spaces. -/
def render (v : Value) : String :=
  String.ofList (v.tokens.flatMap Token.chars)

/-- The start of a line at a level of nesting. -/
def newLine (level : Nat) : List Char :=
  '\n' :: List.replicate (2 * level) ' '

mutual

/-- The lines of a value at a level of nesting. -/
def lines (level : Nat) : Value → List Char
  | array [] => ['[', ']']
  | array (item :: rest) =>
    '[' :: newLine (level + 1) ++ item.lines (level + 1) ++ itemLines (level + 1) rest ++
      newLine level ++ [']']
  | object [] => ['{', '}']
  | object ((name, value) :: rest) =>
    '{' :: newLine (level + 1) ++ quoted name ++ [':', ' '] ++ value.lines (level + 1) ++
      memberLines (level + 1) rest ++ newLine level ++ ['}']
  | null => Token.null.chars
  | bool b => (Token.bool b).chars
  | number x => x.chars
  | string s => quoted s

/-- The lines of further items of an array, with the commas before them. -/
def itemLines (level : Nat) : List Value → List Char
  | [] => []
  | item :: rest => ',' :: newLine level ++ item.lines level ++ itemLines level rest

/-- The lines of further members of an object, with the commas before them. -/
def memberLines (level : Nat) : List (String × Value) → List Char
  | [] => []
  | (name, value) :: rest =>
    ',' :: newLine level ++ quoted name ++ [':', ' '] ++ value.lines level ++
      memberLines level rest

end

/-- The text of a value over several lines. -/
def renderLines (v : Value) : String :=
  String.ofList (v.lines 0)

end Value

end Custody.Json
