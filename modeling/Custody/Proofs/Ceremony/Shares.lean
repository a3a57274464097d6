import Custody.Proofs.Ceremony.Errors
import Custody.Proofs.Text.Base64
/-!
# Calls that differ in their shares

Two calls that ask for signatures with different shares send requests of which only the member with
the share differs (`ActionRequest.exists_render_eq`); diagnostics do not tell them apart
(`ActionRequest.diagnostic_withShare`), and whatever happens, both callers are told the same
(`Call.toldAt_withShare`).
-/

namespace Custody

open Ceremony Json

/-! ## Requests -/

namespace ActionRequest

/-- The request with another share in the place of its own, if it has one. -/
def withShare (request : ActionRequest) (share : Bytes) : ActionRequest :=
  { request with share := request.share.map fun _ => share }

@[simp] theorem withShare_withShare (request : ActionRequest) (share other : Bytes) :
    (request.withShare share).withShare other = request.withShare other := by
  simp [withShare, Function.comp_def]

/-- Diagnostics do not show the share. -/
theorem diagnostic_withShare (request : ActionRequest) (share : Bytes) :
    (request.withShare share).diagnostic = request.diagnostic := by
  have hshown : (request.withShare share).share.map (fun _ => "<redacted>") =
      request.share.map fun _ => "<redacted>" := by
    rw [withShare, Option.map_map]
    rfl
  unfold diagnostic
  rw [hshown]
  simp only [withShare]

/-- Nothing in the text of a byte string has to be escaped. -/
theorem flatMap_escape_encodeChars (b : Bytes) :
    (Text.Base64.encodeChars b).flatMap escape = Text.Base64.encodeChars b := by
  have hsymbol : ∀ k < 64, escape (Text.Base64.symbol k) = [Text.Base64.symbol k] := by decide
  have hplain : ∀ c ∈ Text.Base64.encodeChars b, escape c = [c] := by
    intro c hc
    rw [Text.Base64.encodeChars_eq, List.mem_append] at hc
    rcases hc with hc | hc
    · obtain ⟨k, hk, rfl⟩ := List.mem_map.1 hc
      exact hsymbol k (Text.Base64.lt_of_mem_sextets hk)
    · rw [(List.mem_replicate.1 hc).2]
      rfl
  calc
    (Text.Base64.encodeChars b).flatMap escape
      = (Text.Base64.encodeChars b).flatMap fun c => [c] := List.flatMap_congr hplain
    _ = Text.Base64.encodeChars b := by simp

theorem memberTokens_append (members more : List (String × Value)) :
    Value.memberTokens (members ++ more) =
      Value.memberTokens members ++ Value.memberTokens more := by
  induction members with
  | nil => rfl
  | cons member rest ih => simp [Value.memberTokens, ih]

/-- **What is sent differs in the share alone**: the last member is its text, and what stands in
front of that is the same whatever the share is. -/
theorem exists_render_eq {request : ActionRequest} (h : request.share.isSome) :
    ∃ others, ∀ share, (request.withShare share).render =
      others ++ ",\"share_data\":\"" ++ Text.Base64.encode share ++ "\"\x7d" := by
  obtain ⟨own, hown⟩ := Option.isSome_iff_exists.1 h
  -- the members behind the first one and before the share
  let middle : List (String × Value) :=
    [("parties", .array (request.parties.map fun p => .nat p.toNat)),
      ("threshold", .nat request.threshold.toNat), ("action", .string request.action.name)] ++
      bytesMember "msg_hash" request.hash
  let before : List Token :=
    [.openBrace, .string (some "session_id"), .colon, .string (some request.session.text)] ++
      Value.memberTokens middle
  have htokens (share : Bytes) : (request.withShare share).toValue.tokens =
      before ++ [.comma, .string (some "share_data"), .colon,
        .string (some (Text.Base64.encode share)), .closeBrace] := by
    have hvalue : (request.withShare share).toValue =
        .object (("session_id", .string request.session.text) ::
          (middle ++ [("share_data", .string (Text.Base64.encode share))])) := by
      simp [toValue, withShare, hown, bytesMember, middle]
    rw [hvalue, Value.tokens, memberTokens_append]
    simp [before, Value.tokens, Value.memberTokens]
  refine ⟨String.ofList (before.flatMap Token.chars), fun share => ?_⟩
  rw [← String.toList_inj, render, Value.render, htokens]
  simp [Token.chars, quoted, escape, Text.Base64.encode, flatMap_escape_encodeChars]

end ActionRequest

/-! ## Calls -/

namespace Call

/-- The call with another share in the place of its own, if it has one. -/
def withShare : Call → Bytes → Call
  | createWallet session, _ => createWallet session
  | signRaw session _ hash, share => signRaw session share hash
  | sign session _ hash address, share => sign session share hash address

variable (call : Call) (share : Bytes) (config : Config)

@[simp] theorem purpose_withShare : (call.withShare share).purpose = call.purpose := by
  cases call <;> rfl

@[simp] theorem session_withShare : (call.withShare share).session = call.session := by
  cases call <;> rfl

@[simp] theorem channel_withShare : (call.withShare share).channel = call.channel := by
  rw [channel, channel, purpose_withShare, session_withShare]

@[simp] theorem ceremony_withShare :
    (call.withShare share).ceremony config = call.ceremony config := by
  rw [ceremony, ceremony, channel_withShare, purpose_withShare]

@[simp] theorem conclude_withShare : (call.withShare share).conclude = call.conclude := by
  cases call <;> rfl

/-- The request of the call is the same with the other share, and so is the reason why there is
none. -/
theorem request_withShare :
    (call.withShare share).request config =
      (call.request config).map (·.withShare share) := by
  have hscope : (call.withShare share).scope config = call.scope config := by
    rw [scope, scope, session_withShare, purpose_withShare]
  cases call with
  | createWallet session =>
    rw [withShare] at hscope ⊢
    rw [request]
    cases hs : (createWallet session).scope config <;> rfl
  | signRaw session own hash =>
    simp only [withShare, request, signRequest] at hscope ⊢
    split
    · rfl
    · rw [hscope]
      cases (signRaw session own hash).scope config <;> rfl
  | sign session own hash address =>
    simp only [withShare, request, signRequest] at hscope ⊢
    split
    · rfl
    · rw [hscope]
      cases (sign session own hash address).scope config <;> rfl

/-- So it is with the request of a call that starts now. -/
theorem accept_withShare (clock : Clock) (now : Nat) :
    (call.withShare share).accept clock now config =
      (call.accept clock now config).map (·.withShare share) := by
  rw [accept, accept, request_withShare]
  cases call.request config with
  | error e => rfl
  | ok request => cases clock.deadline now config.timeout <;> rfl

/-- The call takes the same course. -/
theorem course_withShare (events : List Event) :
    (call.withShare share).course config events = call.course config events := by
  rw [course, course, request_withShare, ceremony_withShare]
  cases call.request config <;> rfl

/-- **The caller is told the same.** -/
theorem toldAt_withShare (clock : Clock) (now : Nat) (events : List Event) :
    (call.withShare share).toldAt clock now config events =
      call.toldAt clock now config events := by
  rw [toldAt, toldAt, accept_withShare, told?, told?, course_withShare, conclude_withShare]
  cases call.accept clock now config <;> rfl

end Call

end Custody
