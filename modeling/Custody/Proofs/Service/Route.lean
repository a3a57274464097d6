import Custody.Proofs.Session.Id
import Custody.Proofs.Text.Ascii
import Custody.Service.Http
import Mathlib.Data.List.TakeDrop
import Mathlib.Data.List.TakeWhile
/-!
# Paths of subscriptions

The path of a subscription to a ceremony's channel leads to just that channel
(`Service.destination_subscribePath`): no character of its name ends a segment or a path, and all
stand for themselves.
-/

namespace Custody

namespace Text

theorem fromUTF8?_toUTF8 (text : String) : String.fromUTF8? text.toUTF8 = some text := by
  rw [String.fromUTF8?, String.toUTF8_eq_toByteArray, dif_pos text.isValidUTF8]
  rfl

theorem mk_toList (bytes : ByteArray) : ByteArray.mk bytes.toList.toArray = bytes := by
  rw [ByteArray.toList, toListLoop_eq]
  rfl

/-- Without a percent sign every byte stands for itself. -/
theorem Percent.decodeBytes_of_not_mem {bytes : Bytes} (h : 37 ∉ bytes) :
    decodeBytes bytes = bytes := by
  fun_induction decodeBytes bytes with
  | case1 => rfl
  | case2 => simp at h
  | case3 => simp at h
  | case4 x rest _ ih => rw [ih fun hmem => h (List.mem_cons_of_mem x hmem)]

theorem Percent.decode?_of_not_mem {segment : String} (h : 37 ∉ segment.toUTF8.toList) :
    decode? segment = some segment := by
  rw [decode?, decodeBytes_of_not_mem h, mk_toList, fromUTF8?_toUTF8]

end Text

/-! ## Names of channels -/

theorem ChannelKey.isIdChar_of_mem (key : ChannelKey) {c : Char} (h : c ∈ key.name.toList) :
    isIdChar c = true ∨ c = ':' := by
  rw [ChannelKey.name, String.toList_append, List.mem_append] at h
  rcases h with h | h
  · have hstart : key.purpose.channelStart.toList.all fun c => isIdChar c || c == ':' := by
      cases key.purpose <;> decide
    simpa using List.all_eq_true.1 hstart c h
  · exact .inl (List.all_eq_true.1 key.session.chars c h)

/-- The name of a channel has no character that means something in a path. -/
theorem ChannelKey.plain_of_mem (key : ChannelKey) {c : Char} (h : c ∈ key.name.toList) :
    (c ≠ '/' ∧ c ≠ '?' ∧ c ≠ '#' ∧ c ≠ '%') ∧ c.toNat < 128 := by
  rcases key.isIdChar_of_mem h with hid | rfl
  · have hrange := (toNat_of_isIdChar hid).2
    refine ⟨⟨?_, ?_, ?_, ?_⟩, by omega⟩
    all_goals
      rintro rfl
      revert hid
      decide
  · decide

theorem ChannelKey.percent_not_mem (key : ChannelKey) : 37 ∉ key.name.toUTF8.toList := by
  rw [← String.ofList_toList (s := key.name),
    Text.toList_toUTF8_of_lt fun c hc => (key.plain_of_mem hc).2]
  intro hmem
  obtain ⟨c, hc, he⟩ := List.mem_map.1 hmem
  obtain ⟨⟨-, -, -, hpercent⟩, hlt⟩ := key.plain_of_mem hc
  have hnat := congrArg UInt8.toNat he
  rw [UInt8.toNat_ofNat', Nat.mod_eq_of_lt (by omega)] at hnat
  exact hpercent (Char.toNat_inj.1 hnat)

namespace Service

/-- A path that begins with a slash, and has no query, is taken as it is. -/
theorem barePath_of_plain {chars : List Char} (h : ∀ c ∈ chars, c ≠ '?' ∧ c ≠ '#') :
    barePath (String.ofList ('/' :: chars)) = '/' :: chars := by
  have hspan : (String.ofList ('/' :: chars)).toList.span (fun c => c ≠ ':' && c ≠ '/') =
      ([], '/' :: chars) := by
    rw [String.toList_ofList, List.span_eq_takeWhile_dropWhile]
    rfl
  have hall : ∀ c ∈ '/' :: chars, (decide (c ≠ '?') && decide (c ≠ '#')) = true := by
    intro c hc
    rcases List.mem_cons.1 hc with rfl | hc
    · rfl
    · simpa using h c hc
  simp only [barePath, hspan]
  rw [String.toList_ofList]
  exact List.takeWhile_eq_self_iff.2 hall

/-- The segments of the path of a subscription. -/
theorem splitOn_subscribePath (key : ChannelKey) :
    (barePath (subscribePath key.name)).splitOn '/' =
      [[], "v1".toList, "subscribe".toList, key.name.toList] := by
  have hpath : subscribePath key.name =
      String.ofList ('/' :: ("v1".toList ++ '/' :: ("subscribe".toList ++ '/' ::
        key.name.toList))) := by
    rw [← String.toList_inj, subscribePath, String.toList_append]
    simp
  have hplain : ∀ c ∈ "v1".toList ++ '/' :: ("subscribe".toList ++ '/' :: key.name.toList),
      c ≠ '?' ∧ c ≠ '#' := by
    intro c hc
    have hfixed : ∀ c ∈ "v1/subscribe/".toList, c ≠ '?' ∧ c ≠ '#' := by simp
    have hc' : c ∈ "v1/subscribe/".toList ∨ c ∈ key.name.toList := by
      rw [← List.mem_append]
      exact hc
    rcases hc' with hc' | hc'
    · exact hfixed c hc'
    · exact ⟨(key.plain_of_mem hc').1.2.1, (key.plain_of_mem hc').1.2.2.1⟩
  have hslash : '/' ∉ key.name.toList := fun hc => (key.plain_of_mem hc).1.1 rfl
  rw [hpath, barePath_of_plain hplain, ← List.nil_append ('/' :: _),
    List.splitOn_append_cons_self_of_not_mem List.not_mem_nil,
    List.splitOn_append_cons_self_of_not_mem (by decide),
    List.splitOn_append_cons_self_of_not_mem (by decide), List.splitOn_eq_singleton hslash]

/-- **The path of a subscription leads to its channel.** -/
theorem destination_subscribePath (key : ChannelKey) :
    destination (subscribePath key.name) = .ok key.name := by
  have hroute : route (subscribePath key.name) = some (.subscribe key.name) := by
    have hne : key.name ≠ "" := key.valid_name.1
    simp only [route, splitOn_subscribePath, List.map_cons, List.map_nil, String.ofList_toList]
    simp [hne]
  simp only [destination, hroute, Text.Percent.decode?_of_not_mem key.percent_not_mem,
    ChannelName.fault?_eq_none_iff.2 key.valid_name]

end Service

end Custody
