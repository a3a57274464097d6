/-!
# Targets of requests

A client is given the address of a service as a text, drops the slashes at its end and puts the path
of an endpoint behind it. The target of a request is what the resulting address says: the name of
the peer and the path that the peer is asked for.

Two rules read an address, `Target.ofPage?` and `Target.ofReference`. This module holds what they
have in common: the shape of an authority, which is a user, a name and a number.
-/

namespace Custody.Client

/-- A text without the slashes at its end. -/
def trimSlashes (url : String) : String :=
  String.ofList (url.toList.reverse.dropWhile (· == '/')).reverse

/-- What a request is sent to. -/
structure Target where
  /-- The name of the peer. -/
  host : String
  /-- The path that the peer is asked for, without a query. -/
  path : String
  deriving DecidableEq, Repr

namespace Target

/-- The character ends the path of an address. -/
def endsPath (c : Char) : Bool :=
  c = '?' || c = '#'

/-- The text after the last at sign. -/
def afterUser (authority : List Char) : List Char :=
  (authority.reverse.takeWhile (· ≠ '@')).reverse

/-- The name in an authority without a user, and the number that a colon sets apart from it. A name
in brackets may hold colons. -/
def splitNumber (authority : List Char) : List Char × List Char :=
  let bracketed := if authority.head? = some '[' then authority.takeWhile (· ≠ ']') else []
  let rest := authority.drop bracketed.length
  (bracketed ++ rest.takeWhile (· ≠ ':'), (rest.dropWhile (· ≠ ':')).drop 1)

end Target

end Custody.Client
