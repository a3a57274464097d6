import Custody.Hub.ChannelName
import Custody.Session.Purpose
/-!
# Session ids as names

A session id is the text it was read from (`SessionId.ofText_eq_ok_iff`), so ids with one text are
one id. Whatever the id, the channel of its ceremony has a name that a hub accepts
(`ChannelKey.valid_name`).
-/

namespace Custody

namespace SessionId

theorem text_injective : Function.Injective text := by
  rintro ⟨text, _, _, _⟩ ⟨text', _, _, _⟩ h
  simpa using h

@[simp] theorem ofText_text (id : SessionId) : ofText id.text = .ok id := by
  rw [ofText, dif_neg id.ne_empty, dif_neg (Nat.not_lt.2 id.length_le), dif_pos id.chars]

/-- A text is read as the session id that has it. -/
theorem ofText_eq_ok_iff {text : String} {id : SessionId} :
    ofText text = .ok id ↔ id.text = text := by
  constructor
  · intro h
    grind [ofText]
  · rintro rfl
    exact ofText_text id

end SessionId

/-! ## Channel names -/

/-- The characters of session ids are ASCII characters that can be seen. -/
theorem toNat_of_isIdChar {c : Char} (h : isIdChar c) : 0x20 < c.toNat ∧ c.toNat < 0x7F := by
  have hcases : c.isAlphanum = true ∨ c = '-' ∨ c = '_' ∨ c = '.' := by
    simpa [isIdChar, or_assoc] using h
  rcases hcases with halphanum | rfl | rfl | rfl
  · have hranges : (decide (c.val ≥ 65 ∧ c.val ≤ 90) ||
        decide (c.val ≥ 97) && decide (c.val ≤ 122) ||
          decide (c.val ≥ 48) && decide (c.val ≤ 57)) = true := halphanum
    simp only [Bool.or_eq_true, Bool.and_eq_true, decide_eq_true_eq, ge_iff_le,
      UInt32.le_iff_toNat_le, UInt32.reduceToNat] at hranges
    change 0x20 < c.val.toNat ∧ c.val.toNat < 0x7F
    omega
  · decide
  · decide
  · decide

theorem not_blank_of_isIdChar {c : Char} (h : isIdChar c) :
    Text.isBlank c = false ∧ Text.isControl c = false := by
  have hc := toNat_of_isIdChar h
  constructor
  · simp only [Text.isBlank, Bool.or_eq_false_iff, Bool.and_eq_false_iff, decide_eq_false_iff_not]
    omega
  · simp only [Text.isControl, Bool.or_eq_false_iff, Bool.and_eq_false_iff,
      decide_eq_false_iff_not]
    omega

/-- What stands before a session id in a channel name is visible and short. -/
theorem Purpose.channelStart_valid (purpose : Purpose) :
    purpose.channelStart ≠ "" ∧ purpose.channelStart.utf8ByteSize ≤ 7 ∧
      ∀ c ∈ purpose.channelStart.toList, Text.isBlank c = false ∧ Text.isControl c = false := by
  have hsize : purpose.channelStart ≠ "" ∧ purpose.channelStart.utf8ByteSize ≤ 7 := by
    cases purpose <;> decide
  have hplain : purpose.channelStart.toList.all fun c =>
      !Text.isBlank c && !Text.isControl c := by
    cases purpose <;> decide
  exact ⟨hsize.1, hsize.2, by simpa using hplain⟩

/-- The name of every channel is one that a hub accepts. -/
theorem ChannelKey.valid_name (key : ChannelKey) : ChannelName.Valid key.name := by
  obtain ⟨-, hsize, hvisible⟩ := key.purpose.channelStart_valid
  have hid := key.session.length_le
  refine ⟨?_, ?_, ?_⟩
  · rw [ChannelKey.name, Ne, String.append_eq_empty_iff]
    exact fun h => key.session.ne_empty h.2
  · rw [ChannelKey.name, String.utf8ByteSize_append, ChannelName.maxLength]
    rw [maxSessionIdLength] at hid
    omega
  · intro c hc
    rw [ChannelKey.name, String.toList_append, List.mem_append] at hc
    rcases hc with hc | hc
    · exact hvisible c hc
    · exact not_blank_of_isIdChar (List.all_eq_true.1 key.session.chars c hc)

end Custody
