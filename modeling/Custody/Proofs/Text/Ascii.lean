import Custody.Bytes
/-!
# Texts of ASCII characters as bytes

The bytes of a text are those of its characters (`toList_toUTF8`). An ASCII character is one byte,
and a character whose bytes are all below 128 is an ASCII character (`toNat_lt_of_utf8`), so that
a text of ASCII characters can be told from its bytes.
-/

namespace Custody.Text

theorem toListLoop_eq (b : ByteArray) (i : Nat) (done : List UInt8) :
    ByteArray.toList.loop b i done = done.reverse ++ b.data.toList.drop i := by
  fun_induction ByteArray.toList.loop b i done with
  | case1 i done h ih =>
    have hdrop : b.data.toList.drop i = b.get! i :: b.data.toList.drop (i + 1) := by
      simpa [ByteArray.get!, h] using List.drop_eq_getElem_cons (l := b.data.toList) (i := i) h
    rw [ih, List.reverse_cons, List.append_assoc, hdrop]
    rfl
  | case2 i done h =>
    rw [List.drop_eq_nil_of_le (Nat.le_of_not_lt h), List.append_nil]

theorem toList_eq_data (b : ByteArray) : b.toList = b.data.toList := by
  rw [ByteArray.toList, toListLoop_eq]
  rfl

/-- The bytes of a text are those of its characters. -/
theorem toList_toUTF8 (chars : List Char) :
    (String.ofList chars).toUTF8.toList = chars.flatMap String.utf8EncodeChar := by
  rw [toList_eq_data, String.toUTF8_eq_toByteArray, String.toByteArray_ofList, List.utf8Encode,
    List.toList_data_toByteArray]

/-- A text can be told from its bytes. -/
theorem toList_toUTF8_inj {a b : String} (h : a.toUTF8.toList = b.toUTF8.toList) : a = b := by
  rw [toList_eq_data, toList_eq_data] at h
  exact String.toByteArray_inj.1 (ByteArray.ext (Array.toList_inj.1 h))

theorem utf8EncodeChar_of_lt {c : Char} (h : c.toNat < 128) :
    String.utf8EncodeChar c = [UInt8.ofNat c.toNat] :=
  if_pos (Nat.le_of_lt_succ h)

/-- The bytes of a text of ASCII characters are the numbers of the characters. -/
theorem toList_toUTF8_of_lt {chars : List Char} (h : ∀ c ∈ chars, c.toNat < 128) :
    (String.ofList chars).toUTF8.toList = chars.map fun c => UInt8.ofNat c.toNat := by
  rw [toList_toUTF8]
  induction chars with
  | nil => rfl
  | cons c rest ih =>
    rw [List.flatMap_cons, utf8EncodeChar_of_lt (h c List.mem_cons_self),
      ih fun d hd => h d (List.mem_cons_of_mem c hd)]
    rfl

/-- A character whose bytes are all below 128 is an ASCII character. -/
theorem toNat_lt_of_utf8 {c : Char} (h : ∀ x ∈ String.utf8EncodeChar c, x.toNat < 128) :
    c.toNat < 128 := by
  rw [← Nat.not_le]
  intro hc
  change 128 ≤ c.val.toNat at hc
  unfold String.utf8EncodeChar at h
  dsimp only at h
  rw [if_neg (by omega)] at h
  -- the first byte of a longer form has its highest bit set
  split at h
  · have hfirst := h _ List.mem_cons_self
    rw [UInt8.toNat_ofNat'] at hfirst
    omega
  · split at h
    · have hfirst := h _ List.mem_cons_self
      rw [UInt8.toNat_ofNat'] at hfirst
      omega
    · have hfirst := h _ List.mem_cons_self
      rw [UInt8.toNat_ofNat'] at hfirst
      omega

end Custody.Text
