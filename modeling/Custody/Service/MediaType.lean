/-!
# Media types

A media type is a type and a subtype of token characters with a slash between them, followed by
parameters. The subtype may end with a suffix that names the syntax: what follows its last plus
sign. A body is JSON when its type is `application` and its subtype, or the suffix, is `json`.
-/

namespace Custody.Service

/-- A character that a token may hold. -/
def isTokenChar (c : Char) : Bool :=
  c.isAlphanum || "!#$%&'*+-.^_\x60|~".toList.contains c

/-- A character that a quoted value may hold: a visible one or a space. -/
def isQuotedChar (c : Char) : Bool :=
  0x20 ≤ c.toNat && c.toNat < 0x7F

/-- A type, a subtype without its suffix, and the suffix, in lower case. -/
structure MediaType where
  type : String
  subtype : String
  suffix : Option String
  deriving DecidableEq, Repr

namespace MediaType

/-- Where the reader of parameters is. -/
inductive Place
  /-- Before a name, where spaces may stand. -/
  | start
  | name
  /-- Right after the equals sign. -/
  | valueStart
  | value
  /-- Inside quotes; `any` says whether a character has been read. The value is not empty: a quote
  that would end it at once is its first character. -/
  | quoted (any : Bool)
  /-- After the closing quote. -/
  | after
  deriving DecidableEq, Repr

/-- Takes one character of the parameters. -/
def stepParameter (place : Place) (c : Char) : Option Place :=
  match place with
  | .start => if c = ' ' then some .start else if isTokenChar c then some .name else none
  | .name => if c = '=' then some .valueStart else if isTokenChar c then some .name else none
  | .valueStart =>
    if c = '"' then some (.quoted false) else if isTokenChar c then some .value else none
  | .value => if c = ';' then some .start else if isTokenChar c then some .value else none
  | .quoted any =>
    if any ∧ c = '"' then some .after
    else if isQuotedChar c then some (.quoted true) else none
  | .after => if c = ';' then some .start else if c = ' ' then some .after else none

/-- The parameters may end here. -/
def Place.mayEnd : Place → Bool
  | start | valueStart | value | after => true
  | _ => false

/-- The text is a list of parameters. -/
def areParameters (text : List Char) : Bool :=
  match text.foldlM stepParameter .start with
  | some place => place.mayEnd
  | none => false

/-- A subtype with its suffix, if it has one. The first character is never a suffix's plus sign. -/
def splitSuffix (subtype : List Char) : List Char × Option (List Char) :=
  let reversed := subtype.reverse
  let suffix := (reversed.takeWhile (· ≠ '+')).reverse
  let front := reversed.drop (suffix.length + 1)
  if front = [] then (subtype, none) else (front.reverse, some suffix)

/-- Reads a media type. -/
def ofText? (text : String) : Option MediaType :=
  let type := text.toList.takeWhile (· ≠ '/')
  let rest := text.toList.drop (type.length + 1)
  let subtype := rest.takeWhile (· ≠ ';')
  let parameters := rest.drop (subtype.length + 1)
  if type ≠ [] ∧ text.toList.contains '/' ∧ type.all isTokenChar ∧ subtype.all isTokenChar ∧
      (subtype ≠ [] ∨ subtype = rest) ∧ areParameters parameters then
    let (subtype, suffix) := splitSuffix subtype
    some ⟨(String.ofList type).toLower, (String.ofList subtype).toLower,
      suffix.map fun s => (String.ofList s).toLower⟩
  else
    none

/-- A body of this type is JSON. -/
def isJson (mediaType : MediaType) : Bool :=
  mediaType.type == "application" &&
    (mediaType.subtype == "json" || mediaType.suffix == some "json")

end MediaType

end Custody.Service
