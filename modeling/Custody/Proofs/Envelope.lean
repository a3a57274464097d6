import Custody.Envelope
import Custody.Proofs.Json.Reading
import Custody.Proofs.Text.Base64
import Mathlib.Data.List.Nodup
/-!
# What an envelope decodes to

Of the members of an object only those with a required name count, and of these only the last
(`Envelope.IsLast`). Their strings decide the outcome (`Envelope.Decodes`): an object without one of
them is incomplete, one with all of them is the result whose fields they are, if there is one, and
corrupt otherwise. For a result there is just one text of its bytes, since nothing but canonical
Base64 is read.

* `Envelope.get?_eq_some_iff`: a member that is found is the last with its name.
* `Envelope.completion_eq_complete_iff`: the result of an object.
* `Envelope.decoding`: the statement for payloads, which says how these may be written.
-/

namespace Custody

open Json

/-- The names of the members that carry a result, and their strings. -/
def CeremonyResult.fields : CeremonyResult → List (String × String)
  | keygen key =>
    [(Envelope.shareData, Text.Base64.encode key.share), (Envelope.pubKey, key.address)]
  | sign sig => [(Envelope.signature, Text.Base64.encode sig.der)]

/-- The members that carry a result. -/
def CeremonyResult.members (result : CeremonyResult) : List (String × Value) :=
  result.fields.map fun field => (field.1, .string field.2)

namespace Envelope

/-- The last member with the name holds the value. -/
def IsLast (members : List (String × Value)) (name : String) (value : Value) : Prop :=
  ∃ before after, members = before ++ (name, value) :: after ∧ ∀ member ∈ after, member.1 ≠ name

/-- The member whose string writes bytes. -/
def encodedField : Purpose → String
  | .keygen => shareData
  | .sign => signature

variable {envelope : Envelope} {purpose : Purpose} {members : List (String × Value)} {name : String}
  {value : Value}

/-! ## Last members -/

theorem lookup_reverse_eq_some_iff :
    members.reverse.lookup name = some value ↔ IsLast members name value := by
  rw [List.lookup_eq_some_iff]
  constructor
  · rintro ⟨after, before, h, hafter⟩
    refine ⟨before.reverse, after.reverse, ?_, fun member hmember => ?_⟩
    · rw [← List.reverse_reverse members, h]
      simp
    · exact Ne.symm (bne_iff_ne.1 (hafter member (List.mem_reverse.1 hmember)))
  · rintro ⟨before, after, rfl, hafter⟩
    refine ⟨after.reverse, before.reverse, by simp, fun member hmember => ?_⟩
    exact bne_iff_ne.2 (Ne.symm (hafter member (List.mem_reverse.1 hmember)))

/-- **A member that is found** is the last with its name, and a string. -/
theorem get?_eq_some_iff {s : String} :
    envelope.get? name = some s ↔ IsLast envelope.members name (.string s) := by
  rw [← lookup_reverse_eq_some_iff, get?]
  cases envelope.members.reverse.lookup name with
  | none => simp
  | some value => cases value <;> simp

theorem get?_eq_none_iff :
    envelope.get? name = none ↔ ∀ s, ¬ IsLast envelope.members name (.string s) := by
  simp only [← get?_eq_some_iff, Option.eq_none_iff_forall_ne_some, ne_eq]

/-- A member is the last with its name if all others with the name hold the same. -/
theorem isLast_of_forall (h : (name, value) ∈ members)
    (hsame : ∀ member ∈ members, member.1 = name → member.2 = value) :
    IsLast members name value := by
  cases hlast : members.reverse.lookup name with
  | none =>
    rw [List.lookup_eq_none_iff] at hlast
    exact absurd (hlast _ (List.mem_reverse.2 h)) (by simp)
  | some found =>
    have hfound := lookup_reverse_eq_some_iff.1 hlast
    obtain ⟨before, after, hmembers, -⟩ := hfound
    have hmem : (name, found) ∈ members := hmembers ▸ by simp
    exact hsame _ hmem rfl ▸ lookup_reverse_eq_some_iff.1 hlast

/-! ## Outcomes -/

/-- The bytes of a member are those that its text is written for. -/
theorem decodeMember_eq_ok_iff {text : String} {b : Bytes} :
    decodeMember name text = .ok b ↔ text = Text.Base64.encode b := by
  rw [← Text.Base64.decode_eq_ok_iff, decodeMember]
  cases Text.Base64.decode text <;> simp

/-- Why the bytes of a member cannot be decoded. -/
theorem decodeMember_eq_error_iff {text reason : String} :
    decodeMember name text = .error reason ↔
      ∃ fault, Text.Base64.decode text = .error fault ∧ reason = name ++ ": " ++ fault.message := by
  rw [decodeMember]
  cases Text.Base64.decode text <;> simp [eq_comm]

/-- The strings of a result are found. -/
def Holds (envelope : Envelope) (result : CeremonyResult) : Prop :=
  ∀ field ∈ result.fields, envelope.get? field.1 = some field.2

/-- What becomes of an object for a purpose, told by the strings that are found. -/
inductive Outcome (envelope : Envelope) : Purpose → Completion → Prop
  | incomplete {purpose : Purpose} {name : String} (hname : name ∈ requiredFields purpose)
    (h : envelope.get? name = none) : Outcome envelope purpose .incomplete
  | complete {purpose : Purpose} {result : CeremonyResult} (hpurpose : result.purpose = purpose)
    (h : envelope.Holds result) : Outcome envelope purpose (.complete result)
  | corrupt {purpose : Purpose} {text : String} {fault : Text.Base64.Fault}
    (hthere : ∀ name ∈ requiredFields purpose, envelope.get? name ≠ none)
    (htext : envelope.get? (encodedField purpose) = some text)
    (h : Text.Base64.decode text = .error fault) :
    Outcome envelope purpose (.corrupt (encodedField purpose ++ ": " ++ fault.message))

/-- **What becomes of an object.** -/
theorem outcome_completion (envelope : Envelope) (purpose : Purpose) :
    envelope.Outcome purpose (envelope.completion purpose) := by
  cases purpose with
  | keygen =>
    rw [completion]
    cases hshare : envelope.get? shareData with
    | none => exact .incomplete List.mem_cons_self hshare
    | some share =>
      cases haddress : envelope.get? pubKey with
      | none => exact .incomplete (List.mem_cons_of_mem _ List.mem_cons_self) haddress
      | some address =>
        dsimp only
        cases hread : decodeMember shareData share with
        | ok b =>
          obtain rfl := decodeMember_eq_ok_iff.1 hread
          exact .complete rfl (by simp [Holds, CeremonyResult.fields, hshare, haddress])
        | error reason =>
          obtain ⟨fault, hfault, rfl⟩ := decodeMember_eq_error_iff.1 hread
          exact .corrupt (by simp [requiredFields, hshare, haddress]) hshare hfault
  | sign =>
    rw [completion]
    cases htext : envelope.get? signature with
    | none => exact .incomplete List.mem_cons_self htext
    | some text =>
      dsimp only
      cases hread : decodeMember signature text with
      | ok b =>
        obtain rfl := decodeMember_eq_ok_iff.1 hread
        exact .complete rfl (by simp [Holds, CeremonyResult.fields, htext])
      | error reason =>
        obtain ⟨fault, hfault, rfl⟩ := decodeMember_eq_error_iff.1 hread
        exact .corrupt (by simp [requiredFields, htext]) htext hfault

/-- Nothing but the required members is looked at. -/
theorem completion_congr {other : Envelope}
    (h : ∀ name ∈ requiredFields purpose, envelope.get? name = other.get? name) :
    envelope.completion purpose = other.completion purpose := by
  cases purpose with
  | keygen =>
    rw [completion, completion, h shareData List.mem_cons_self,
      h pubKey (List.mem_cons_of_mem _ List.mem_cons_self)]
  | sign => rw [completion, completion, h signature List.mem_cons_self]

/-! ## Fields of results -/

/-- The fields of a result have the required names. -/
theorem map_fst_fields (result : CeremonyResult) :
    result.fields.map Prod.fst = requiredFields result.purpose := by
  cases result <;> rfl

theorem nodup_map_fst_members (result : CeremonyResult) :
    (result.members.map Prod.fst).Nodup := by
  have hnames : result.members.map Prod.fst = requiredFields result.purpose := by
    rw [← map_fst_fields, CeremonyResult.members, List.map_map]
    rfl
  rw [hnames]
  cases result.purpose <;> decide

/-- One of the fields of a result is the text of bytes. -/
theorem exists_encodedField (result : CeremonyResult) :
    ∃ b, (encodedField result.purpose, Text.Base64.encode b) ∈ result.fields := by
  rcases result with key | sig
  · exact ⟨key.share, List.mem_cons_self⟩
  · exact ⟨sig.der, List.mem_cons_self⟩

theorem Holds.get?_ne_none {result : CeremonyResult} (h : envelope.Holds result) :
    ∀ name ∈ requiredFields result.purpose, envelope.get? name ≠ none := by
  intro name hname
  rw [← map_fst_fields] at hname
  obtain ⟨field, hfield, rfl⟩ := List.mem_map.1 hname
  rw [h field hfield]
  exact Option.some_ne_none _

/-- Results for one purpose can be told from their strings. -/
theorem Holds.eq {result other : CeremonyResult} (hresult : envelope.Holds result)
    (hother : envelope.Holds other) (hpurpose : result.purpose = other.purpose) :
    result = other := by
  rcases result with ⟨share, address⟩ | ⟨⟨der⟩⟩ <;>
    rcases other with ⟨share', address'⟩ | ⟨⟨der'⟩⟩
  · simp only [Holds, CeremonyResult.fields, List.forall_mem_cons] at hresult hother
    have hshare := Option.some.inj (hresult.1.symm.trans hother.1)
    have haddress := Option.some.inj (hresult.2.1.symm.trans hother.2.1)
    rw [Text.Base64.encode_inj hshare, haddress]
  · cases hpurpose
  · cases hpurpose
  · simp only [Holds, CeremonyResult.fields, List.forall_mem_cons] at hresult hother
    have hder := Option.some.inj (hresult.1.symm.trans hother.1)
    rw [Text.Base64.encode_inj hder]

theorem isComplete_eq_false_iff :
    envelope.isComplete purpose = false ↔
      ∃ name ∈ requiredFields purpose, envelope.get? name = none := by
  simp [isComplete]

theorem isComplete_of_forall (h : ∀ name ∈ requiredFields purpose, envelope.get? name ≠ none) :
    envelope.isComplete purpose = true := by
  rw [← Bool.not_eq_false, isComplete_eq_false_iff]
  rintro ⟨name, hname, hnone⟩
  exact h name hname hnone

namespace Outcome

variable {c : Completion}

theorem incomplete_iff (h : envelope.Outcome purpose c) :
    c = .incomplete ↔ envelope.isComplete purpose = false := by
  cases h with
  | incomplete hname h => simpa [isComplete_eq_false_iff] using ⟨_, hname, h⟩
  | complete hpurpose h => simp [isComplete_of_forall (hpurpose ▸ h.get?_ne_none)]
  | corrupt hthere htext h => simp [isComplete_of_forall hthere]

theorem complete_iff (h : envelope.Outcome purpose c) (result : CeremonyResult) :
    c = .complete result ↔ result.purpose = purpose ∧ envelope.Holds result := by
  constructor
  · rintro rfl
    cases h with
    | complete hpurpose h => exact ⟨hpurpose, h⟩
  · rintro ⟨rfl, hholds⟩
    cases h with
    | incomplete hname h => exact absurd h (hholds.get?_ne_none _ hname)
    | complete hpurpose h => rw [h.eq hholds hpurpose]
    | corrupt hthere htext h =>
      obtain ⟨b, hb⟩ := exists_encodedField result
      obtain rfl := Option.some.inj (htext.symm.trans (hholds _ hb))
      rw [Text.Base64.decode_encode] at h
      cases h

/-- An object that is neither incomplete nor a result is corrupt. -/
theorem corrupt_iff (h : envelope.Outcome purpose c) :
    (∃ reason, c = .corrupt reason) ↔ envelope.isComplete purpose = true ∧
      ∃ text, envelope.get? (encodedField purpose) = some text ∧
        ∀ b, text ≠ Text.Base64.encode b := by
  cases h with
  | incomplete hname h =>
    simp [isComplete_eq_false_iff.2 ⟨_, hname, h⟩]
  | @complete result hpurpose h =>
    subst hpurpose
    obtain ⟨b, hb⟩ := exists_encodedField result
    have hfound := h _ hb
    simp only [reduceCtorEq, exists_const, hfound, Option.some.injEq, exists_eq_left', false_iff,
      not_and, not_forall, not_not]
    exact fun _ => ⟨b, rfl⟩
  | @corrupt text fault hthere htext h =>
    refine iff_of_true ⟨_, rfl⟩ ⟨isComplete_of_forall hthere, text, htext, ?_⟩
    rintro b rfl
    rw [Text.Base64.decode_encode] at h
    cases h

/-- Why an object is corrupt. -/
theorem reason_eq {reason : String} (h : envelope.Outcome purpose (.corrupt reason)) :
    ∃ text fault, envelope.get? (encodedField purpose) = some text ∧
      Text.Base64.decode text = .error fault ∧
      reason = encodedField purpose ++ ": " ++ fault.message := by
  cases h with
  | corrupt hthere htext h => exact ⟨_, _, htext, h, rfl⟩

end Outcome

/-! ## Payloads -/

/-- A payload is an object if it spells one within the limits of a reader. -/
theorem ofText?_eq_some_iff {payload : String} :
    ofText? payload = some envelope ↔
      Lexer.Spelled (Value.object envelope.members).tokens payload.toList ∧
        Fits maxDepth (.object envelope.members) := by
  rw [← Value.ofText?_eq_some_iff, ofText?]
  constructor
  · intro h
    split at h
    · next members hmembers =>
      obtain rfl := Option.some.inj h
      exact hmembers
    · cases h
  · intro h
    rw [h]

/-- The members of a result are found among others of other names. -/
theorem holds_of_perm {result : CeremonyResult} {others : List (String × Value)}
    (hmembers : envelope.members.Perm (result.members ++ others))
    (hothers : ∀ other ∈ others, other.1 ∉ requiredFields result.purpose) :
    envelope.Holds result := by
  intro field hfield
  rw [get?_eq_some_iff]
  have hin : (field.1, Value.string field.2) ∈ result.members := List.mem_map_of_mem hfield
  refine isLast_of_forall (hmembers.mem_iff.2 (List.mem_append_left _ hin)) ?_
  intro member hmember hname
  rcases List.mem_append.1 (hmembers.mem_iff.1 hmember) with hmember | hmember
  · rw [List.inj_on_of_nodup_map (nodup_map_fst_members result) hmember hin hname]
  · have hrequired : field.1 ∈ requiredFields result.purpose :=
      map_fst_fields result ▸ List.mem_map_of_mem hfield
    exact absurd (hname ▸ hrequired) (hothers member hmember)

/-- What an object decodes to for a purpose. -/
structure Decodes (envelope : Envelope) (purpose : Purpose) : Prop where
  /-- That the object is incomplete is found in two places alike. -/
  incomplete_iff : envelope.completion purpose = .incomplete ↔ envelope.isComplete purpose = false
  /-- It is so if the last member of a required name is missing or no string. -/
  isComplete_eq_false_iff : envelope.isComplete purpose = false ↔
    ∃ name ∈ requiredFields purpose, ∀ s, ¬ IsLast envelope.members name (.string s)
  /-- It is a result if the last members are the strings of that. -/
  complete_iff : ∀ result, envelope.completion purpose = .complete result ↔
    result.purpose = purpose ∧
      ∀ field ∈ result.fields, IsLast envelope.members field.1 (.string field.2)
  /-- It is corrupt if all is there and the text of the bytes is not the text of any bytes. -/
  corrupt_iff : (∃ reason, envelope.completion purpose = .corrupt reason) ↔
    envelope.isComplete purpose = true ∧
      ∃ text, IsLast envelope.members (encodedField purpose) (.string text) ∧
        ∀ b, text ≠ Text.Base64.encode b
  reason_eq : ∀ reason, envelope.completion purpose = .corrupt reason → ∃ text fault,
    IsLast envelope.members (encodedField purpose) (.string text) ∧
      Text.Base64.decode text = .error fault ∧
      reason = encodedField purpose ++ ": " ++ fault.message
  /-- Nothing but the last strings of required names is looked at. -/
  congr : ∀ other : Envelope, (∀ name ∈ requiredFields purpose, ∀ s,
    IsLast envelope.members name (.string s) ↔ IsLast other.members name (.string s)) →
      envelope.completion purpose = other.completion purpose

theorem decodes (envelope : Envelope) (purpose : Purpose) : envelope.Decodes purpose where
  incomplete_iff := (envelope.outcome_completion purpose).incomplete_iff
  isComplete_eq_false_iff := by
    simp only [Envelope.isComplete_eq_false_iff, get?_eq_none_iff]
  complete_iff result := by
    simp only [(envelope.outcome_completion purpose).complete_iff, Holds, get?_eq_some_iff]
  corrupt_iff := by
    simp only [(envelope.outcome_completion purpose).corrupt_iff, get?_eq_some_iff]
  reason_eq reason h := by
    have houtcome := envelope.outcome_completion purpose
    rw [h] at houtcome
    simpa only [get?_eq_some_iff] using houtcome.reason_eq
  congr other h := by
    refine completion_congr fun name hname => Option.ext fun s => ?_
    rw [get?_eq_some_iff, get?_eq_some_iff]
    exact h name hname s

/-- **What a payload decodes to.** A payload is an object if it spells one, with any spaces and
escapes, that is within the limits of a reader. Whether that is a result, is incomplete or is
corrupt, and which result it is, is said by the last members of the required names alone. And
whatever a result is: a payload that spells an object with its members, in any order and among any
others of other names, decodes to it. -/
theorem decoding :
    (∀ payload envelope, ofText? payload = some envelope ↔
      Lexer.Spelled (Value.object envelope.members).tokens payload.toList ∧
        Fits maxDepth (.object envelope.members)) ∧
    (∀ (envelope : Envelope) purpose, envelope.Decodes purpose) ∧
    ∀ (result : CeremonyResult) others members payload,
      members.Perm (result.members ++ others) →
      (∀ other ∈ others, other.1 ∉ requiredFields result.purpose) →
      Fits maxDepth (.object members) →
      Lexer.Spelled (Value.object members).tokens payload.toList →
      ∃ envelope, ofText? payload = some envelope ∧
        envelope.completion result.purpose = .complete result := by
  refine ⟨fun payload envelope => ofText?_eq_some_iff, decodes, ?_⟩
  intro result others members payload hmembers hothers hfits hspelled
  refine ⟨⟨members⟩, ofText?_eq_some_iff.2 ⟨hspelled, hfits⟩, ?_⟩
  exact ((outcome_completion _ _).complete_iff result).2 ⟨rfl, holds_of_perm hmembers hothers⟩

/-- The member that counts stands after another, and its name and its string have escapes. -/
theorem decoding_of_escape :
    ∃ envelope,
      ofText? "\x7b\"pub_key\": [], \"\\u0073ignature\": \"MAYCAQECAQE\\u003d\"\x7d" =
        some envelope ∧
      envelope.completion .sign = .complete (.sign ⟨[48, 6, 2, 1, 1, 2, 1, 1]⟩) := by
  let members : List (String × Value) :=
    [(pubKey, .array []), (signature, .string "MAYCAQECAQE=")]
  refine decoding.2.2 (.sign ⟨[48, 6, 2, 1, 1, 2, 1, 1]⟩) [(pubKey, .array [])] members _
    (.swap _ _ _) (by decide) (.object fun member hmember => ?_) ?_
  · simp only [members, List.mem_cons, List.not_mem_nil, or_false] at hmember
    rcases hmember with rfl | rfl
    · exact .array (by simp)
    · exact .string _
  · have htokens : (Value.object members).tokens = Lexer.tokens
        "\x7b\"pub_key\": [], \"\\u0073ignature\": \"MAYCAQECAQE\\u003d\"\x7d".toList := by
      simp only [String.toList]
      rfl
    rw [htokens]
    refine Lexer.spelled_tokens ?_
    rw [← htokens]
    exact Value.isProper_of_mem_tokens _

end Envelope

end Custody
