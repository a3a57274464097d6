import Custody.Client.Target
/-!
# Addresses of sockets

The strict rule for addresses, that of generic references: a character that a part of the address
cannot hold makes the whole address unfit, and the path is taken as it stands. What follows a number
sign is not looked at.

The authority is read from its start (`Authority.step`). Colons and percent signs may stand freely
before an at sign and inside brackets; elsewhere one colon is allowed, before the number, and no
percent sign. The number itself is not looked at.
-/

namespace Custody.Client.Target

/-- Why there is no target for the address of a socket. -/
inductive ReferenceFault
  | tooLong
  /-- A part of the address holds a character that it cannot hold. -/
  | badCharacter
  | badAuthority
  /-- There is no scheme, or no authority behind it. -/
  | badForm
  | longScheme
  /-- The address is a path alone. -/
  | noPeer
  /-- The scheme is none of sockets. -/
  | unknownScheme
  /-- No peer understands the request that the address makes. -/
  | badRequest
  deriving DecidableEq, Repr

/-- The text of a fault. -/
def ReferenceFault.message : ReferenceFault → String
  | tooLong => "HTTP format error: uri too long"
  | badCharacter => "HTTP format error: invalid uri character"
  | badAuthority => "HTTP format error: invalid authority"
  | badForm => "HTTP format error: invalid format"
  | longScheme => "HTTP format error: scheme too long"
  | noPeer => "URL error: No host name in the URL"
  | unknownScheme => "URL error: URL scheme not supported"
  | badRequest => "HTTP error: 400 Bad Request"

/-! ## Authorities -/

/-- What has been seen of an authority. -/
structure Authority where
  /-- The colons since the last at sign or closing bracket. -/
  colons : Nat
  /-- There is a percent sign since the last at sign or closing bracket. -/
  percent : Bool
  /-- There is an opening bracket. -/
  opened : Bool
  /-- There is a closing bracket. -/
  closed : Bool
  deriving DecidableEq, Repr

namespace Authority

/-- The most colons that may stand together: seven in a name of eight groups, and that before the
number. -/
def colonLimit : Nat := 8

/-- Nothing has been seen. -/
def start : Authority :=
  ⟨0, false, false, false⟩

/-- The character stands for itself wherever it is in an authority. -/
def isPlain (c : Char) : Bool :=
  c.isAlphanum || "!$&'()*+,-.;=_~".toList.contains c

/-- Takes in one more character, unless it cannot stand there. -/
def step (seen : Authority) (c : Char) : Except ReferenceFault Authority :=
  match c with
  | ':' =>
    if seen.colons < colonLimit then .ok { seen with colons := seen.colons + 1 }
    else .error .badAuthority
  | '%' => .ok { seen with percent := true }
  | '@' => .ok { seen with colons := 0, percent := false }
  | '[' =>
    if seen.percent || seen.opened then .error .badAuthority
    else .ok { seen with opened := true }
  | ']' =>
    if seen.opened && !seen.closed then
      .ok { seen with colons := 0, percent := false, closed := true }
    else
      .error .badAuthority
  | c => if isPlain c then .ok seen else .error .badCharacter

/-- Takes in characters. -/
def read (seen : Authority) : List Char → Except ReferenceFault Authority
  | [] => .ok seen
  | c :: rest =>
    match seen.step c with
    | .error fault => .error fault
    | .ok seen => read seen rest

/-- The authority may end here. -/
def isComplete (seen : Authority) : Bool :=
  seen.opened == seen.closed && seen.colons ≤ 1 && !seen.percent

end Authority

/-- Why a text is no authority, if it is none. Behind a user there must be something. -/
def authorityFault? (text : List Char) : Option ReferenceFault :=
  match Authority.start.read text with
  | .error fault => some fault
  | .ok seen =>
    if seen.isComplete && text.getLast? ≠ some '@' then none else some .badAuthority

/-! ## The other parts -/

/-- The character can stand in the name of a scheme. -/
def isSchemeChar (c : Char) : Bool :=
  c.isAlphanum || c = '+' || c = '-' || c = '.'

/-- The most characters that the name of a scheme may have. -/
def schemeLimit : Nat := 64

/-- The scheme of an address and what stands behind it, if there is a scheme. -/
def splitScheme? (url : List Char) : Option (List Char × List Char) :=
  match url.dropWhile isSchemeChar with
  | ':' :: '/' :: '/' :: rest => some (url.takeWhile isSchemeChar, rest)
  | _ => none

/-- The character can stand in a path and in a query. -/
def isVisible (c : Char) : Bool :=
  0x20 < c.toNat && c ≠ '<' && c ≠ '>'

/-- The path and the query, with its question mark, of what stands behind an authority. -/
def splitQuery (behind : List Char) : List Char × List Char :=
  let seen := behind.takeWhile (· ≠ '#')
  (seen.takeWhile (· ≠ '?'), seen.dropWhile (· ≠ '?'))

/-- The path and the query hold nothing but what they can hold. -/
def isFitBehind (behind : List Char) : Bool :=
  let (path, query) := splitQuery behind
  (path.all fun c => isVisible c && c ≠ '`') && query.all fun c => isVisible c && c ≠ '"'

/-- The path that a peer is asked for, the root where there is none. A peer understands neither a
query without a path nor a delete character. -/
def requestPath? (behind : List Char) : Option (List Char) :=
  match splitQuery behind with
  | ([], []) => some ['/']
  | ([], _) => none
  | (path, query) => if (path ++ query).contains '\x7f' then none else some path

/-! ## Addresses -/

/-- The most bytes that an address may have. -/
def referenceLimit : Nat := 65534

/-- The schemes of sockets. -/
def socketSchemes : List String := ["ws", "wss"]

/-- The authority at the front of a text and what stands behind it. -/
def splitAuthority (rest : List Char) : List Char × List Char :=
  let isEnd (c : Char) : Bool := c = '/' || endsPath c
  (rest.takeWhile fun c => !isEnd c, rest.dropWhile fun c => !isEnd c)

/-- Why an address without a scheme is unfit. -/
def plainFault (url : List Char) : ReferenceFault :=
  if url.head? = some '/' then
    if isFitBehind url then .noPeer else .badCharacter
  else
    (authorityFault? (splitAuthority url).1).getD .badForm

/-- The target of the address of a socket. -/
def ofReference (url : String) : Except ReferenceFault Target :=
  if referenceLimit < url.utf8ByteSize then .error .tooLong
  else
    match splitScheme? url.toList with
    | none => .error (plainFault url.toList)
    | some (scheme, rest) =>
      let (authority, behind) := splitAuthority rest
      if schemeLimit < scheme.length then .error .longScheme
      else
        match authorityFault? authority with
        | some fault => .error fault
        | none =>
          if authority.isEmpty then .error .badForm
          else if !isFitBehind behind then .error .badCharacter
          else if String.ofList scheme ∉ socketSchemes then .error .unknownScheme
          else
            match requestPath? behind with
            | none => .error .badRequest
            | some path =>
              .ok ⟨String.ofList (splitNumber (afterUser authority)).1, String.ofList path⟩

end Custody.Client.Target
