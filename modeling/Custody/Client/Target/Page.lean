import Custody.Client.Target
import Custody.Text.Percent
/-!
# Addresses of pages

The tolerant rule for addresses, that of pages on the web: it takes the scheme in either case,
passes over needless slashes, takes a backslash for a slash, resolves dot segments and writes unfit
characters in percent form.
-/

namespace Custody.Client.Target

/-- The text is empty or a decimal number of 16 bits. -/
def isWord16 (digits : List Char) : Bool :=
  digits.all Char.isDigit && digits.foldl (fun n c => n * 10 + (c.toNat - 48)) 0 < 65536

/-- The name in an authority, if there is one and the number behind it is fit. -/
def host? (authority : List Char) : Option (List Char) :=
  let (name, number) := splitNumber (afterUser authority)
  if name.isEmpty || !isWord16 number then none else some name

/-- The character separates the segments of a page's path. -/
def isSlash (c : Char) : Bool :=
  c = '/' || c = '\\'

/-- The character can stand in the path of a page as it is. -/
def isPathChar (c : Char) : Bool :=
  0x20 < c.toNat && c.toNat < 0x7F && !"\"#<>?`\x7b\x7d".toList.contains c

/-- The character can stand in the name of a page's peer. -/
def isHostChar (c : Char) : Bool :=
  0x20 < c.toNat && c.toNat ≠ 0x7F && !"#/<>?@[\\]^|%:".toList.contains c

/-- The segments of a text between separators. -/
def segments (isSeparator : Char → Bool) : List Char → List (List Char)
  | [] => [[]]
  | c :: rest =>
    match segments isSeparator rest with
    | [] => [[c]]
    | segment :: others =>
      if isSeparator c then [] :: segment :: others else (c :: segment) :: others

/-- A segment as it is compared with dots: a dot may be in percent form. -/
def plainDots (segment : List Char) : String :=
  ((String.ofList segment).toLower).replace "%2e" "."

/-- Resolves dot segments. The segments above the rest are held last to first. A dot segment at the
end leaves an empty one. -/
def resolve (above : List (List Char)) : List (List Char) → List (List Char)
  | [] => above.reverse
  | segment :: rest =>
    let last : List (List Char) := if rest.isEmpty then [[]] else []
    match plainDots segment with
    | "." => resolve (last ++ above) rest
    | ".." => resolve (last ++ above.tail) rest
    | _ => resolve (segment :: above) rest

/-- The path of a page, from what stands behind the name of the peer. -/
def pagePath (rest : List Char) : List Char :=
  let written := (rest.takeWhile fun c => !endsPath c).drop 1
  (resolve [] ((segments isSlash written).map (Text.Percent.encode isPathChar))).flatMap
    ('/' :: ·)

/-- Reads the name of a page's peer. -/
def pageHost? (name : List Char) : Option String :=
  match Text.Percent.decode? (String.ofList name) with
  | none => none
  | some name =>
    if name ≠ "" && name.toList.all isHostChar then some name.toLower else none

/-- The text behind the scheme of a page, if the scheme is one of web pages. -/
def afterScheme? (url : List Char) : Option (List Char) :=
  match ["https:", "http:"].find? fun scheme =>
      (String.ofList (url.take scheme.length)).toLower = scheme with
  | some scheme => some (url.drop scheme.length)
  | none => none

/-- A text without what is passed over in the address of a page: control characters and spaces at
its ends, and tabs and line ends everywhere. -/
def cleaned (url : List Char) : List Char :=
  let isEdge (c : Char) : Bool := c.toNat ≤ 0x20
  ((url.dropWhile isEdge).reverse.dropWhile isEdge).reverse.filter
    fun c => !(c = '\t' || c = '\n' || c = '\r')

/-- The target of a page's address. -/
def ofPage? (url : String) : Option Target := do
  let rest := (← afterScheme? (cleaned url.toList)).dropWhile isSlash
  let isEnd (c : Char) : Bool := isSlash c || endsPath c
  let name ← host? (rest.takeWhile fun c => !isEnd c)
  let host ← pageHost? name
  return ⟨host, String.ofList (pagePath (rest.dropWhile fun c => !isEnd c))⟩

end Custody.Client.Target
