import Custody.Proofs.Bytes
import Custody.Proofs.Text.Ascii
import Custody.Text.Hex
import Mathlib.Data.List.Basic
/-!
# Reading hexadecimal text

The reader goes through the bytes of a text, so it has to be seen that digits are single bytes and
that no other character passes for some (`forall_isDigit_iff`). What it reads can then be said in
two ways that know nothing of bytes:

* `decode_eq_ok_iff`: the digits, without capitals, are what is written for the bytes that are read;
* `decode_eq_ok_iff_numeral`: they are two for each byte, and stand for the same number.
-/

namespace Custody.Text.Hex

/-! ## Digits -/

/-- A hexadecimal digit of either case. -/
def IsDigit (c : Char) : Prop :=
  ('0' ≤ c ∧ c ≤ '9') ∨ ('a' ≤ c ∧ c ≤ 'f') ∨ ('A' ≤ c ∧ c ≤ 'F')

instance (c : Char) : Decidable (IsDigit c) :=
  inferInstanceAs (Decidable (_ ∨ _))

theorem isDigit_iff {c : Char} :
    IsDigit c ↔
      (48 ≤ c.toNat ∧ c.toNat ≤ 57) ∨ (97 ≤ c.toNat ∧ c.toNat ≤ 102) ∨
        (65 ≤ c.toNat ∧ c.toNat ≤ 70) := by
  simp only [IsDigit, Char.le_def, UInt32.le_iff_toNat_le, Char.reduceVal, UInt32.reduceToNat,
    Char.toNat]

theorem toNat_lt_of_isDigit {c : Char} (h : IsDigit c) : c.toNat < 128 := by
  rw [isDigit_iff] at h
  omega

theorem value?_isSome_iff {x : UInt8} :
    (value? x).isSome ↔
      (48 ≤ x.toNat ∧ x.toNat ≤ 57) ∨ (97 ≤ x.toNat ∧ x.toNat ≤ 102) ∨
        (65 ≤ x.toNat ∧ x.toNat ≤ 70) := by
  unfold value?
  grind

theorem toNat_lt_of_value? {x : UInt8} (h : (value? x).isSome) : x.toNat < 128 := by
  rw [value?_isSome_iff] at h
  omega

theorem value?_ofNat_isSome_iff {c : Char} (h : c.toNat < 128) :
    (value? (UInt8.ofNat c.toNat)).isSome ↔ IsDigit c := by
  rw [value?_isSome_iff, isDigit_iff, UInt8.toNat_ofNat', Nat.mod_eq_of_lt (by omega)]

/-- A text of digits is one whose bytes are all digits. -/
theorem forall_isDigit_iff {chars : List Char} :
    (∀ c ∈ chars, IsDigit c) ↔
      ∀ x ∈ (String.ofList chars).toUTF8.toList, (value? x).isSome := by
  constructor
  · intro h x hx
    rw [toList_toUTF8_of_lt fun c hc => toNat_lt_of_isDigit (h c hc), List.mem_map] at hx
    obtain ⟨c, hc, rfl⟩ := hx
    exact (value?_ofNat_isSome_iff (toNat_lt_of_isDigit (h c hc))).2 (h c hc)
  · intro h c hc
    rw [toList_toUTF8] at h
    have hbytes : ∀ x ∈ String.utf8EncodeChar c, (value? x).isSome :=
      fun x hx => h x (List.mem_flatMap.2 ⟨c, hc, hx⟩)
    have hc := toNat_lt_of_utf8 fun x hx => toNat_lt_of_value? (hbytes x hx)
    rw [utf8EncodeChar_of_lt hc] at hbytes
    exact (value?_ofNat_isSome_iff hc).1 (hbytes _ List.mem_cons_self)

/-! ## How many digits there are -/

/-- Digits that are read are two for each byte. -/
theorem of_decodePairs_eq_ok {position : Nat} {text bytes : Bytes}
    (heven : text.length % 2 = 0) (h : decodePairs position text = .ok bytes) :
    text.length = 2 * bytes.length ∧ ∀ x ∈ text, (value? x).isSome := by
  fun_induction decodePairs position text generalizing bytes with
  | case1 position x y rest hx => cases h
  | case2 position x y rest high hx hy => cases h
  | case3 position x y rest high hx low hy ih =>
    cases hrest : decodePairs (position + 2) rest with
    | error fault =>
      rw [hrest] at h
      cases h
    | ok more =>
      rw [hrest] at h
      obtain rfl := Except.ok.inj h
      simp only [List.length_cons] at heven
      obtain ⟨hlength, hdigits⟩ := ih (by omega) hrest
      refine ⟨by simp only [List.length_cons, hlength]; omega, fun z hz => ?_⟩
      rcases List.mem_cons.1 hz with rfl | hz
      · rw [hx, Option.isSome_some]
      · rcases List.mem_cons.1 hz with rfl | hz
        · rw [hy, Option.isSome_some]
        · exact hdigits z hz
  | case4 text position hnone =>
    obtain rfl := Except.ok.inj h
    match text with
    | [] => exact ⟨rfl, fun x hx => by simp at hx⟩
    | [x] => simp at heven
    | x :: y :: rest => exact (hnone x y rest rfl).elim

theorem exists_decodePairs (position : Nat) {text : Bytes}
    (h : ∀ x ∈ text, (value? x).isSome) : ∃ bytes, decodePairs position text = .ok bytes := by
  fun_induction decodePairs position text with
  | case1 position x y rest hx => simp [hx] at h
  | case2 position x y rest high hx hy => simp [hy] at h
  | case3 position x y rest high hx low hy ih =>
    obtain ⟨bytes, hbytes⟩ := ih fun z hz => h z (by simp [hz])
    exact ⟨UInt8.ofNat (high * 16 + low) :: bytes, by rw [hbytes]; rfl⟩
  | case4 position text hnone => exact ⟨[], rfl⟩

/-- A text is read as so many bytes exactly if it is made of twice as many digits. -/
theorem exists_decode_iff {chars : List Char} {length : Nat} :
    (∃ bytes, decode (String.ofList chars) = .ok bytes ∧ bytes.length = length) ↔
      chars.length = 2 * length ∧ ∀ c ∈ chars, IsDigit c := by
  have hlength (h : ∀ c ∈ chars, IsDigit c) :
      (String.ofList chars).toUTF8.toList.length = chars.length := by
    rw [toList_toUTF8_of_lt fun c hc => toNat_lt_of_isDigit (h c hc), List.length_map]
  constructor
  · rintro ⟨bytes, hdecode, rfl⟩
    rw [decode, decodeBytes] at hdecode
    split at hdecode
    · cases hdecode
    · obtain ⟨hbytes, hdigits⟩ := of_decodePairs_eq_ok (by omega) hdecode
      rw [← forall_isDigit_iff] at hdigits
      exact ⟨by rw [← hlength hdigits, hbytes], hdigits⟩
  · rintro ⟨hchars, hdigits⟩
    obtain ⟨bytes, hpairs⟩ := exists_decodePairs 0 (forall_isDigit_iff.1 hdigits)
    have heven := hlength hdigits
    have hbytes := (of_decodePairs_eq_ok (by omega) hpairs).1
    refine ⟨bytes, ?_, by omega⟩
    rw [decode, decodeBytes, if_neg (by omega), hpairs]

/-! ## What is written -/

/-- The digits of base sixteen, without capitals. -/
def lowerDigits : List Char :=
  "0123456789abcdef".toList

theorem digit_mem_lowerDigits {k : Nat} (h : k < 16) : digit k ∈ lowerDigits := by
  revert k
  decide

theorem length_encodeChars (b : Bytes) : (encodeChars b).length = 2 * b.length := by
  induction b with
  | nil => rfl
  | cons x rest ih =>
    rw [encodeChars, List.flatMap_cons, List.length_append, ← encodeChars, ih, List.length_cons]
    simp only [List.length_cons, List.length_nil]
    omega

theorem encode_append (a b : Bytes) : encode (a ++ b) = encode a ++ encode b := by
  simp [encode, encodeChars, List.flatMap_append]

theorem mem_lowerDigits {b : Bytes} {c : Char} (h : c ∈ encodeChars b) : c ∈ lowerDigits := by
  obtain ⟨x, -, hc⟩ := List.mem_flatMap.1 h
  have hx := x.toNat_lt
  simp only [List.mem_cons, List.not_mem_nil, or_false] at hc
  rcases hc with rfl | rfl
  · exact digit_mem_lowerDigits (by omega)
  · exact digit_mem_lowerDigits (by omega)

/-- The number that a digit of either case stands for: its place among the digits. -/
def digitValue (c : Char) : Nat :=
  lowerDigits.idxOf c.toLower

/-- The number that digits write in base sixteen, the most significant digit first. -/
def numeral (digits : List Char) : Nat :=
  digits.foldl (fun n c => 16 * n + digitValue c) 0

theorem digitValue_digit {k : Nat} (h : k < 16) : digitValue (digit k) = k := by
  revert k
  decide

/-- A digit is read as the number that it stands for, and without its case it is written for that
number. -/
theorem value?_of_isDigit {c : Char} (h : IsDigit c) :
    value? (UInt8.ofNat c.toNat) = some (digitValue c) ∧ digitValue c < 16 ∧
      digit (digitValue c) = c.toLower := by
  have hall : ∀ k < 128, IsDigit (Char.ofNat k) →
      value? (UInt8.ofNat (Char.ofNat k).toNat) = some (digitValue (Char.ofNat k)) ∧
        digitValue (Char.ofNat k) < 16 ∧
        digit (digitValue (Char.ofNat k)) = (Char.ofNat k).toLower := by
    decide +kernel
  have hc := hall c.toNat (toNat_lt_of_isDigit h)
  rw [Char.ofNat_toNat] at hc
  exact hc h

theorem encodeChars_cons (x : UInt8) (b : Bytes) :
    encodeChars (x :: b) = digit (x.toNat / 16) :: digit (x.toNat % 16) :: encodeChars b :=
  rfl

/-- The digits that are written for bytes stand for their number. -/
theorem numeral_encodeChars (b : Bytes) : numeral (encodeChars b) = Bytes.toNat b := by
  have hall (n : Nat) : (encodeChars b).foldl (fun n c => 16 * n + digitValue c) n =
      b.foldl (fun n x => n * 256 + x.toNat) n := by
    induction b generalizing n with
    | nil => rfl
    | cons x b ih =>
      have hx := x.toNat_lt
      rw [encodeChars_cons, List.foldl_cons, List.foldl_cons, List.foldl_cons,
        digitValue_digit (by omega), digitValue_digit (by omega), ih]
      congr 1
      omega
  exact hall 0

theorem encodeChars_injective : Function.Injective encodeChars := by
  intro a b h
  refine Bytes.eq_of_toNat_eq ?_ ?_
  · have hlength := congrArg List.length h
    rw [length_encodeChars, length_encodeChars] at hlength
    omega
  · rw [← numeral_encodeChars, h, numeral_encodeChars]

theorem numeral_map_toLower {digits : List Char} (h : ∀ c ∈ digits, IsDigit c) :
    numeral (digits.map Char.toLower) = numeral digits := by
  have hvalue : ∀ c, IsDigit c → digitValue c.toLower = digitValue c := by
    intro c hc
    obtain ⟨-, hlt, hlower⟩ := value?_of_isDigit hc
    rw [← hlower, digitValue_digit hlt]
  rw [numeral, numeral, List.foldl_map]
  exact List.foldl_ext _ _ _ fun n c hc => by rw [hvalue c (h c hc)]

/-! ## What is read -/

/-- The digits that are read, without their case, are those that are written for the bytes. -/
theorem encodeChars_of_decodePairs {position : Nat} {digits : List Char} {bytes : Bytes}
    (hdigits : ∀ c ∈ digits, IsDigit c) (heven : digits.length % 2 = 0)
    (h : decodePairs position (digits.map fun c => UInt8.ofNat c.toNat) = .ok bytes) :
    encodeChars bytes = digits.map Char.toLower := by
  match digits with
  | [] =>
    obtain rfl : [] = bytes := Except.ok.inj h
    rfl
  | [c] => simp at heven
  | c :: d :: rest =>
    obtain ⟨hc, hclt, hclower⟩ := value?_of_isDigit (hdigits c (by simp))
    obtain ⟨hd, hdlt, hdlower⟩ := value?_of_isDigit (hdigits d (by simp))
    simp only [List.map_cons, decodePairs, hc, hd] at h
    cases hrest : decodePairs (position + 2) (rest.map fun c => UInt8.ofNat c.toNat) with
    | error fault =>
      rw [hrest] at h
      cases h
    | ok more =>
      rw [hrest] at h
      obtain rfl := Except.ok.inj h
      have hrestEven : rest.length % 2 = 0 := by
        simp only [List.length_cons] at heven
        omega
      have hmore :=
        encodeChars_of_decodePairs (fun e he => hdigits e (by simp [he])) hrestEven hrest
      have hbyte : (UInt8.ofNat (digitValue c * 16 + digitValue d)).toNat =
          digitValue c * 16 + digitValue d := by
        rw [UInt8.toNat_ofNat', Nat.mod_eq_of_lt (by omega)]
      rw [encodeChars_cons, hbyte, hmore, List.map_cons, List.map_cons, ← hclower, ← hdlower,
        show (digitValue c * 16 + digitValue d) / 16 = digitValue c by omega,
        show (digitValue c * 16 + digitValue d) % 16 = digitValue d by omega]

/-- **What is read**: a text of digits is read as the bytes for which, but for capitals, just these
digits are written. -/
theorem decode_eq_ok_iff {digits : List Char} {bytes : Bytes} :
    decode (String.ofList digits) = .ok bytes ↔
      (∀ c ∈ digits, IsDigit c) ∧ encodeChars bytes = digits.map Char.toLower := by
  have hread {bytes : Bytes} (h : decode (String.ofList digits) = .ok bytes) :
      (∀ c ∈ digits, IsDigit c) ∧ encodeChars bytes = digits.map Char.toLower := by
    obtain ⟨hlength, hdigits⟩ := exists_decode_iff.1 ⟨bytes, h, rfl⟩
    have hpairs : decodePairs 0 (digits.map fun c => UInt8.ofNat c.toNat) = .ok bytes := by
      rw [decode, decodeBytes,
        toList_toUTF8_of_lt fun c hc => toNat_lt_of_isDigit (hdigits c hc), List.length_map,
        if_neg (by omega)] at h
      exact h
    exact ⟨hdigits, encodeChars_of_decodePairs hdigits (by omega) hpairs⟩
  refine ⟨hread, fun ⟨hdigits, hlower⟩ => ?_⟩
  have hlength := congrArg List.length hlower
  rw [length_encodeChars, List.length_map] at hlength
  obtain ⟨found, hfound, -⟩ := exists_decode_iff.2 ⟨hlength.symm, hdigits⟩
  rwa [encodeChars_injective (hlower.trans (hread hfound).2.symm)]

/-- **What is read, as a number**: a text is read as bytes exactly if it has two digits for each of
them, which stand for the same number. -/
theorem decode_eq_ok_iff_numeral {digits : List Char} {bytes : Bytes} :
    decode (String.ofList digits) = .ok bytes ↔
      digits.length = 2 * bytes.length ∧ (∀ c ∈ digits, IsDigit c) ∧
        Bytes.toNat bytes = numeral digits := by
  have hread {bytes : Bytes} (h : decode (String.ofList digits) = .ok bytes) :
      digits.length = 2 * bytes.length ∧ (∀ c ∈ digits, IsDigit c) ∧
        Bytes.toNat bytes = numeral digits := by
    obtain ⟨hdigits, hlower⟩ := decode_eq_ok_iff.1 h
    refine ⟨?_, hdigits, ?_⟩
    · rw [← length_encodeChars, hlower, List.length_map]
    · rw [← numeral_encodeChars, hlower, numeral_map_toLower hdigits]
  refine ⟨hread, fun ⟨hlength, hdigits, hnumber⟩ => ?_⟩
  obtain ⟨found, hfound, hsame⟩ := exists_decode_iff.2 ⟨hlength, hdigits⟩
  rwa [Bytes.eq_of_toNat_eq hsame.symm (hnumber.trans (hread hfound).2.2.symm)]

end Custody.Text.Hex
