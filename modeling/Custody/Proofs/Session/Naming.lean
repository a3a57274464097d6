import Custody.Proofs.Session.Id
import Mathlib.Data.List.Basic
/-!
# Names that tell ceremonies apart

The id of a user's ceremony is the user, a hyphen and a number. Users may hold hyphens and digits
themselves; what tells two ids apart is that behind the last hyphen there is the number and nothing
else (`SessionId.ofUser_inj`). The names of channels tell purposes and sessions apart
(`ChannelKey.name_injective`).
-/

namespace Custody

/-- Where two texts have something other than `c` behind their last `c`, both the parts behind it
and the parts in front of it are the same in equal texts. -/
theorem append_cons_inj_of_not_mem_right {c : Char} {front front' back back' : List Char}
    (hback : c ∉ back) (hback' : c ∉ back')
    (h : front ++ c :: back = front' ++ c :: back') : front = front' ∧ back = back' := by
  -- one of the fronts is the start of the other, and what it lacks would hold a `c`
  rcases List.append_eq_append_iff.1 h with ⟨more, hmore, hrest⟩ | ⟨more, hmore, hrest⟩
  · cases more with
    | nil => simp_all
    | cons d more => simp_all
  · cases more with
    | nil => simp_all
    | cons d more => simp_all

/-- A number is written without hyphens. -/
theorem hyphen_not_mem_toString (n : Nat) : '-' ∉ (toString n).toList := by
  rw [Nat.toString_eq_repr, Nat.toList_repr]
  intro h
  exact absurd (Nat.isDigit_of_mem_toDigits (by decide) (by decide) h) (by decide)

/-- What is written for a number can be read back. -/
theorem toString_nat_injective : Function.Injective (toString : Nat → String) := by
  intro m n h
  have hdigits := congrArg (fun text => Nat.ofDigitChars 10 text.toList 0) h
  simpa [Nat.toString_eq_repr, Nat.toList_repr] using hdigits

namespace SessionId

theorem text_of_ofUser {user : String} {nonce : UInt64} {id : SessionId}
    (h : ofUser user nonce = .ok id) :
    id.text.toList = user.toList ++ '-' :: (toString nonce.toNat).toList := by
  rw [ofText_eq_ok_iff.1 h, String.toList_append, String.toList_append, List.append_assoc]
  rfl

/-- **An id belongs to one user and one number.** -/
theorem ofUser_inj {user user' : String} {nonce nonce' : UInt64} {id : SessionId}
    (h : ofUser user nonce = .ok id) (h' : ofUser user' nonce' = .ok id) :
    user = user' ∧ nonce = nonce' := by
  obtain ⟨huser, hnumber⟩ := append_cons_inj_of_not_mem_right
    (hyphen_not_mem_toString nonce.toNat) (hyphen_not_mem_toString nonce'.toNat)
    ((text_of_ofUser h).symm.trans (text_of_ofUser h'))
  exact ⟨String.toList_inj.1 huser,
    UInt64.toNat_inj.1 (toString_nat_injective (String.toList_inj.1 hnumber))⟩

end SessionId

namespace ChannelKey

/-- **A channel name belongs to one purpose and one session.** -/
theorem name_injective : Function.Injective name := by
  rintro ⟨purpose, id⟩ ⟨purpose', id'⟩ h
  have hchars := congrArg String.toList h
  simp only [name, String.toList_append] at hchars
  -- the first letters tell the purposes apart
  have hpurpose : purpose = purpose' := by
    cases purpose <;> cases purpose' <;> simp_all [Purpose.channelStart]
  subst hpurpose
  rw [SessionId.text_injective (String.toList_inj.1 (List.append_cancel_left hchars))]

end ChannelKey

end Custody
