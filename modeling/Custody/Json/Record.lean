import Custody.Json.Tree
/-!
# Records

A record has named fields in a fixed order. It is written as an object, whose members may stand in
any order and among others that are passed over, or as an array of the fields in their order.
Every field may be given once; an optional one may be left out, in an array only at the end.

Reading goes through the text from left to right and ends at the first fault, which is either one
of syntax or a value that does not fit (`Fault`). Members that are passed over only have to be
complete.
-/

namespace Custody.Json

/-- Why a text is not the expected record. -/
inductive Fault
  /-- The text is no JSON. -/
  | malformed
  /-- The text says something else than what is expected. -/
  | mismatch
  deriving DecidableEq, Repr

/-- A field of a record. -/
structure Field where
  name : String
  /-- The field may hold this value. -/
  accepts : Tree → Bool
  optional : Bool

namespace Tree

/-! ## Values of fields -/

/-- The characters of a string. -/
def string? : Tree → Option String
  | string s => s
  | _ => none

/-- The value is a string of characters. -/
def isString (t : Tree) : Bool :=
  t.string?.isSome

/-- A truth value. -/
def bool? : Tree → Option Bool
  | bool b => some b
  | _ => none

/-- An integer below a bound. -/
def natBelow? (bound : Nat) : Tree → Option Nat
  | number x =>
    match x.toNat? with
    | some k => if k < bound then some k else none
    | none => none
  | _ => none

/-- The values of all items of a list. -/
def all? {α : Type} (read : Tree → Option α) : List Tree → Option (List α)
  | [] => some []
  | item :: rest =>
    match read item, all? read rest with
    | some a, some rest => some (a :: rest)
    | _, _ => none

/-- The values of all items of an array. -/
def array? {α : Type} (read : Tree → Option α) : Tree → Option (List α)
  | array items => all? read items
  | _ => none

/-- A value that may be null. -/
def nullable? {α : Type} (read : Tree → Option α) : Tree → Option (Option α)
  | null => some none
  | t => (read t).map some

/-- The name of an alternative without data: the name itself, or an object with one member of that
name whose value is null. -/
def alternative? : Tree → Option String
  | string s => s
  | object [(name, null)] => name
  | _ => none

/-! ## Records -/

/-- The fault of a value that a field does not accept: one of syntax where the value cannot be
read at all, be it because the text stops there, because it names half of a surrogate pair, or
because it is a number beyond every floating point value. -/
def fault : Tree → Fault
  | cut => .malformed
  | string none => .malformed
  | number x => if x.isFinite then .mismatch else .malformed
  | _ => .mismatch

/-- The fields that have been read. -/
abbrev Fields := List (String × Tree)

/-- All fields in a list are optional. -/
def endOfRecord (missing : List Field) (found : Fields) : Except Fault Fields :=
  if missing.all Field.optional then .ok found else .error .mismatch

/-- Reads the fields of a record from the items of an array. -/
def ofItems (found : Fields) : List Field → List Tree → Except Fault Fields
  | fields, [] => endOfRecord fields found
  | [], _ :: _ => .error .malformed
  | field :: fields, item :: rest =>
    if field.accepts item then ofItems ((field.name, item) :: found) fields rest
    else .error item.fault

/-- Reads the fields of a record from the members of an object. -/
def ofMembers (fields : List Field) (found : Fields) :
    List (Option String × Tree) → Except Fault Fields
  | [] => endOfRecord (fields.filter fun field => (found.lookup field.name).isNone) found
  | (none, _) :: _ => .error .malformed
  | (some name, value) :: rest =>
    match fields.find? fun field => field.name == name with
    | none => if value.isWhole then ofMembers fields found rest else .error .malformed
    | some field =>
      if (found.lookup name).isSome then .error .mismatch
      else if field.accepts value then ofMembers fields ((name, value) :: found) rest
      else .error value.fault

/-- Reads the fields of a record. -/
def record (fields : List Field) : Tree → Except Fault Fields
  | array items => ofItems [] fields items
  | object members => ofMembers fields [] members
  | t => .error t.fault

/-- The value of a field, where it was given and can be read. -/
def Fields.get? {α : Type} (found : Fields) (name : String) (read : Tree → Option α) : Option α :=
  (found.lookup name).bind read

end Tree

end Custody.Json
