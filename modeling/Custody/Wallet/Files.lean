/-!
# Files

The files that a program can see, each under its path. A file that is written for the first time can
be read by its owner alone; one that is written again keeps its permissions.
-/

namespace Custody.Wallet

/-- A file. -/
structure File where
  text : String
  /-- Only the owner may read or write it. -/
  isPrivate : Bool
  deriving DecidableEq, Repr

/-- Files under their paths. -/
abbrev Files := List (String × File)

namespace Files

/-- The text of a file, if there is one. -/
def read? (files : Files) (path : String) : Option String :=
  (files.lookup path).map File.text

/-- Writes a file. -/
def write (files : Files) (path text : String) : Files :=
  match files with
  | [] => [(path, ⟨text, true⟩)]
  | (other, file) :: rest =>
    if other = path then (path, { file with text }) :: rest
    else (other, file) :: write rest path text

@[simp] theorem read?_write_self (files : Files) (path text : String) :
    (files.write path text).read? path = some text := by
  induction files with
  | nil => simp [write, read?]
  | cons entry rest ih => grind [write, read?]

end Files

/-- The path of a name in a directory. -/
def pathIn (directory name : String) : String :=
  if directory.toList.getLast? = some '/' then directory ++ name else directory ++ "/" ++ name

end Custody.Wallet
