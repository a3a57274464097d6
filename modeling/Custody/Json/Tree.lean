import Custody.Json.Lexer
/-!
# Trees of tokens

What a text says as far as it can be read. Where the text stops being JSON, the tree is cut
(`Tree.cut`): the values before that place are there, the containers around it are kept, and
nothing follows. A reader that looks for members in the order of the text therefore meets a wrong
value before a later fault of syntax, and a fault of syntax before a later wrong value.

The tree is built by a machine that takes one token at a time and keeps the containers that are
open (`Builder.step`).
-/

namespace Custody.Json

/-- A value as far as the text gives it. -/
inductive Tree
  | null
  | bool (b : Bool)
  | number (x : Number)
  /-- A string, or none where its escapes name half of a surrogate pair. -/
  | string (s : Option String)
  | array (items : List Tree)
  /-- The members in the order of the text; a name is missing where it is no string. -/
  | object (members : List (Option String × Tree))
  /-- The text stops being JSON here. -/
  | cut

namespace Tree

mutual

/-- The value is complete. -/
def isWhole : Tree → Bool
  | array items => allWhole items
  | object members => membersWhole members
  | cut => false
  | _ => true

/-- All values of a list are complete. -/
def allWhole : List Tree → Bool
  | [] => true
  | item :: rest => item.isWhole && allWhole rest

/-- All values of a list of members are complete. -/
def membersWhole : List (Option String × Tree) → Bool
  | [] => true
  | (_, value) :: rest => value.isWhole && membersWhole rest

end

end Tree

/-- A container that is open, with what it holds so far, last first. -/
inductive Frame
  | array (items : List Tree)
  /-- The value of the named member comes next. -/
  | object (members : List (Option String × Tree)) (name : Option String)

namespace Builder

/-- What the machine expects. -/
inductive State
  /-- A value. -/
  | value (stack : List Frame)
  /-- The first item of an array, or its end. -/
  | firstItem (stack : List Frame)
  /-- The first member of an object, or its end. -/
  | firstMember (stack : List Frame)
  /-- The name of a further member. -/
  | name (members : List (Option String × Tree)) (stack : List Frame)
  /-- The colon after a name. -/
  | colon (members : List (Option String × Tree)) (name : Option String) (stack : List Frame)
  /-- A comma or the end of the array. -/
  | afterItem (items : List Tree) (stack : List Frame)
  /-- A comma or the end of the object. -/
  | afterMember (members : List (Option String × Tree)) (stack : List Frame)
  /-- The value is complete or cut; something may follow it. -/
  | done (tree : Tree) (more : Bool)

/-- The state after a complete value. -/
def put (tree : Tree) : List Frame → State
  | [] => .done tree false
  | .array items :: stack => .afterItem (tree :: items) stack
  | .object members name :: stack => .afterMember ((name, tree) :: members) stack

/-- The tree whose open containers end with the given one. -/
def close (tree : Tree) : List Frame → Tree
  | [] => tree
  | .array items :: stack => close (.array (tree :: items).reverse) stack
  | .object members name :: stack => close (.object ((name, tree) :: members).reverse) stack

/-- The tree that is cut where the machine stands. -/
def stop : State → Tree
  | .value stack => close .cut stack
  | .firstItem stack => close (.array [.cut]) stack
  | .firstMember stack => close (.object [(none, .cut)]) stack
  | .name members stack => close (.object ((none, .cut) :: members).reverse) stack
  | .colon members name stack => close (.object ((name, .cut) :: members).reverse) stack
  | .afterItem items stack => close (.array (.cut :: items).reverse) stack
  | .afterMember members stack => close (.object ((none, .cut) :: members).reverse) stack
  | .done tree _ => tree

/-- The first token of a value, inside the given containers; `state` is where the tree is cut if
it is none. -/
def begin (token : Token) (stack : List Frame) (state : State) : State :=
  match token with
  | .null => put .null stack
  | .bool b => put (.bool b) stack
  | .number x => put (.number x) stack
  | .string s => put (.string s) stack
  | .openBracket => .firstItem stack
  | .openBrace => .firstMember stack
  | _ => .done (stop state) true

/-- Takes one token. -/
def step (state : State) (token : Token) : State :=
  match state, token with
  | .value stack, token => begin token stack state
  | .firstItem stack, .closeBracket => put (.array []) stack
  | .firstItem stack, token => begin token (.array [] :: stack) state
  | .firstMember stack, .closeBrace => put (.object []) stack
  | .firstMember stack, .string s => .colon [] s stack
  | .name members stack, .string s => .colon members s stack
  | .colon members name stack, .colon => .value (.object members name :: stack)
  | .afterItem items stack, .comma => .value (.array items :: stack)
  | .afterItem items stack, .closeBracket => put (.array items.reverse) stack
  | .afterMember members stack, .comma => .name members stack
  | .afterMember members stack, .closeBrace => put (.object members.reverse) stack
  | .done tree _, _ => .done tree true
  | state, _ => .done (stop state) true

end Builder

/-- The tree that tokens write, and whether anything follows it. -/
def Tree.ofTokens (tokens : List Token) : Tree × Bool :=
  match tokens.foldl Builder.step (.value []) with
  | .done tree more => (tree, more)
  | state => (Builder.stop state, false)

/-- The tree at the start of a text; what follows it is not looked at. -/
def Tree.ofPrefix (text : String) : Tree :=
  (ofTokens (Lexer.tokens text.toList)).1

/-- The tree of a text, cut where anything but spaces follows it. -/
def Tree.ofText (text : String) : Tree :=
  match ofTokens (Lexer.tokens text.toList) with
  | (tree, false) => tree
  | (_, true) => .cut

end Custody.Json
