import Custody.Error
import Custody.Text.Quoted
/-!
# Session ids

A session id names one ceremony. It is made of ASCII letters, digits, hyphens, underscores and
dots, is not empty and has at most 128 bytes; the type holds only such texts, and `SessionId.ofText`
says which rule a text breaks. The alphabet has no colon, so that a channel name can put a purpose
in front, and no slash, so that a file name or a path segment can hold an id.
-/

namespace Custody

/-- The largest number of bytes of a session id. -/
def maxSessionIdLength : Nat := 128

/-- A character that a session id may hold. -/
def isIdChar (c : Char) : Bool :=
  c.isAlphanum || c = '-' || c = '_' || c = '.'

/-- The name of one ceremony. -/
structure SessionId where
  text : String
  ne_empty : text ≠ ""
  length_le : text.utf8ByteSize ≤ maxSessionIdLength
  chars : text.toList.all isIdChar
  deriving DecidableEq

namespace SessionId

/-- Why a text is no session id. -/
inductive Fault
  | empty
  | tooLong
  | badCharacters (text : String)
  deriving DecidableEq, Repr

/-- The text of a fault. -/
def Fault.message : Fault → String
  | empty => "Session id cannot be empty"
  | tooLong => s!"Session id longer than {maxSessionIdLength} characters"
  | badCharacters text => "Session id contains invalid characters: " ++ text

/-- The error that a fault is for a caller. -/
def Fault.toError (fault : Fault) : Error :=
  .invalidConfig fault.message

/-- The session id with the given text. -/
def ofText (text : String) : Except Fault SessionId :=
  if h : text = "" then
    .error .empty
  else if hl : maxSessionIdLength < text.utf8ByteSize then
    .error .tooLong
  else if hc : text.toList.all isIdChar then
    .ok ⟨text, h, Nat.le_of_not_lt hl, hc⟩
  else
    .error (.badCharacters text)

/-- The session id of a user's ceremony, numbered by a counter of the user. -/
def ofUser (user : String) (nonce : UInt64) : Except Fault SessionId :=
  ofText (user ++ "-" ++ toString nonce.toNat)

/-- A session id as diagnostics show it. -/
def diagnostic (id : SessionId) : String :=
  "SessionId(" ++ Text.quote id.text ++ ")"

/-! ## Random ids -/

/-- The digits of a random id: 32 hexadecimal digits taken from a number, the thirteenth of which
is 4 and the seventeenth of which is 8, 9, a or b. -/
def uuidDigit (bits : Nat) (i : Nat) : Char :=
  let d := (bits >>> (4 * i)) % 16
  Text.Hex.digit (if i = 12 then 4 else if i = 16 then 8 + d % 4 else d)

/-- Some digits of a random id. -/
def uuidGroup (bits start length : Nat) : List Char :=
  (List.range' start length).map (uuidDigit bits)

/-- The digits of a random id in groups of 8, 4, 4, 4 and 12, with hyphens between them. -/
def uuidChars (bits : Nat) : List Char :=
  uuidGroup bits 0 8 ++ '-' :: uuidGroup bits 8 4 ++ '-' :: uuidGroup bits 12 4 ++
    '-' :: uuidGroup bits 16 4 ++ '-' :: uuidGroup bits 20 12

theorem utf8ByteSize_ofList {l : List Char} (h : ∀ c ∈ l, c.utf8Size = 1) :
    (String.ofList l).utf8ByteSize = l.length := by
  induction l with
  | nil => rfl
  | cons c l ih =>
    have hl := ih fun d hd => h d (List.mem_cons_of_mem c hd)
    have hc := h c List.mem_cons_self
    rw [show String.ofList (c :: l) = String.singleton c ++ String.ofList l by simp]
    simp [String.utf8ByteSize_append, hl, hc, Nat.add_comm]

theorem digit_isIdChar (k : Nat) (h : k < 16) :
    isIdChar (Text.Hex.digit k) = true ∧ (Text.Hex.digit k).utf8Size = 1 := by
  have : ∀ k < 16, isIdChar (Text.Hex.digit k) = true ∧ (Text.Hex.digit k).utf8Size = 1 := by
    decide
  exact this k h

theorem uuidDigit_isIdChar (bits i : Nat) :
    isIdChar (uuidDigit bits i) = true ∧ (uuidDigit bits i).utf8Size = 1 := by
  apply digit_isIdChar
  split
  · omega
  · split <;> omega

theorem uuidChars_isIdChar (bits : Nat) :
    ∀ c ∈ uuidChars bits, isIdChar c = true ∧ c.utf8Size = 1 := by
  have group (start length : Nat) : ∀ c ∈ uuidGroup bits start length,
      isIdChar c = true ∧ c.utf8Size = 1 := by
    intro c hc
    obtain ⟨i, -, rfl⟩ := List.mem_map.1 hc
    exact uuidDigit_isIdChar bits i
  have hyphen : isIdChar '-' = true ∧ '-'.utf8Size = 1 := by decide
  intro c hc
  simp only [uuidChars, List.mem_append, List.mem_cons] at hc
  rcases hc with (((hc | rfl | hc) | rfl | hc) | rfl | hc) | rfl | hc
  · exact group _ _ _ hc
  · exact hyphen
  · exact group _ _ _ hc
  · exact hyphen
  · exact group _ _ _ hc
  · exact hyphen
  · exact group _ _ _ hc
  · exact hyphen
  · exact group _ _ _ hc

/-- The session id whose digits are taken from a random number. -/
def random (bits : Nat) : SessionId where
  text := String.ofList (uuidChars bits)
  ne_empty := by
    intro h
    have := congrArg String.length h
    simp [uuidChars, uuidGroup] at this
  length_le := by
    rw [utf8ByteSize_ofList fun c hc => (uuidChars_isIdChar bits c hc).2]
    simp [uuidChars, uuidGroup, maxSessionIdLength]
  chars := by
    rw [String.toList_ofList, List.all_eq_true]
    exact fun c hc => (uuidChars_isIdChar bits c hc).1

end SessionId

end Custody
