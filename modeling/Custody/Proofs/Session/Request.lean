import Custody.Proofs.Json.RoundTrip
import Custody.Proofs.Session.Id
import Custody.Proofs.Text.Base64
import Custody.Session.Request
/-!
# Requests on the wire

A request survives its way over the wire.

* `ActionRequest.ofText?_render`: the text of a request is JSON that says what the request is.
* `ActionRequest.ofTree_ofText_render`: whoever reads the text has the very request that was sent,
  whatever its parties, its share and its digest are, and whether it has any.
-/

namespace Custody

open Json

namespace ActionRequest

theorem toNat_lt_size64 (x : UInt32) : x.toNat < UInt64.size :=
  x.toNat_lt.trans (by decide)

theorem plain_bytesMember {depth : Nat} {name : String} {b : Option Bytes}
    {member : String × Value} (h : member ∈ bytesMember name b) : Plain depth member.2 := by
  cases b with
  | none => simp [bytesMember] at h
  | some b =>
    rw [bytesMember, List.mem_singleton] at h
    rw [h]
    exact .string _

theorem plain_toValue (request : ActionRequest) (depth : Nat) :
    Plain (depth + 2) request.toValue := by
  refine .object fun member hmember => ?_
  rw [List.mem_append, List.mem_append] at hmember
  rcases hmember with (hmember | hmember) | hmember
  · simp only [List.mem_cons, List.not_mem_nil, or_false] at hmember
    rcases hmember with rfl | rfl | rfl | rfl
    · exact .string _
    · refine .array fun item hitem => ?_
      obtain ⟨party, -, rfl⟩ := List.mem_map.1 hitem
      exact .nat (toNat_lt_size64 party)
    · exact .nat (toNat_lt_size64 request.threshold)
    · exact .string _
  · exact plain_bytesMember hmember
  · exact plain_bytesMember hmember

/-- The text of a request says what the request is. -/
theorem ofText?_render (request : ActionRequest) :
    Value.ofText? request.render = some request.toValue :=
  Json.ofText?_render (request.plain_toValue 125)

/-! ## Fields -/

@[simp] theorem session?_tree (id : SessionId) :
    session? (Value.string id.text).tree = some id := by
  simp [session?, Value.tree, Tree.string?, SessionId.ofText_text, Except.toOption]

@[simp] theorem word32?_tree (x : UInt32) : word32? (Value.nat x.toNat).tree = some x := by
  simp [word32?, Value.nat, Value.tree, Tree.natBelow?, toNat?_ofNat, x.toNat_lt_size]

@[simp] theorem parties?_tree (parties : List PartyId) :
    (Value.array (parties.map fun p => .nat p.toNat)).tree.array? word32? = some parties := by
  simp only [Value.tree, Tree.array?]
  induction parties with
  | nil => rfl
  | cons party rest ih => simp [Value.trees, Tree.all?, ih]

@[simp] theorem action?_tree (action : Action) :
    action? (Value.string action.name).tree = some action := by
  cases action <;> rfl

@[simp] theorem bytes?_tree (b : Bytes) :
    Tree.nullable? bytes? (Value.string (Text.Base64.encode b)).tree = some (some b) := by
  simp [Tree.nullable?, bytes?, Value.tree, Tree.string?, Except.toOption]

/-! ## Reading a request back -/

/-- What is read of an optional member with bytes. -/
def bytesFound (name : String) (b : Option Bytes) : Tree.Fields :=
  (bytesMember name b).map fun member => (member.1, member.2.tree)

/-- An optional member with bytes is read if it is there. -/
theorem ofMembers_bytesMember {found : Tree.Fields} {name : String} (b : Option Bytes)
    (hfield : fields.find? (fun field => field.name == name) =
      some ⟨name, fun t => (t.nullable? bytes?).isSome, true⟩)
    (hnew : found.lookup name = none) (rest : List (String × Value)) :
    Tree.ofMembers fields found (Value.memberTrees (bytesMember name b ++ rest)) =
      Tree.ofMembers fields (bytesFound name b ++ found) (Value.memberTrees rest) := by
  cases b with
  | none => rfl
  | some b =>
    simp only [bytesMember, List.cons_append, List.nil_append, Value.memberTrees]
    rw [Tree.ofMembers_cons hfield hnew (by simp)]
    rfl

/-- What is read of the members that every request has. -/
def found (request : ActionRequest) : Tree.Fields :=
  [("action", (Value.string request.action.name).tree),
    ("threshold", (Value.nat request.threshold.toNat).tree),
    ("parties", (Value.array (request.parties.map fun p => .nat p.toNat)).tree),
    ("session_id", (Value.string request.session.text).tree)]

/-- All that is read of a request. -/
theorem record_tree (request : ActionRequest) :
    request.toValue.tree.record fields =
      .ok (bytesFound "share_data" request.share ++
        (bytesFound "msg_hash" request.hash ++ request.found)) := by
  have hbase (rest : List (String × Value)) :
      Tree.ofMembers fields [] (Value.memberTrees
        ([("session_id", .string request.session.text),
          ("parties", .array (request.parties.map fun p => .nat p.toNat)),
          ("threshold", .nat request.threshold.toNat),
          ("action", .string request.action.name)] ++ rest)) =
        Tree.ofMembers fields request.found (Value.memberTrees rest) := by
    simp only [List.cons_append, List.nil_append, Value.memberTrees]
    rw [Tree.ofMembers_cons rfl rfl (by simp), Tree.ofMembers_cons rfl rfl (by simp),
      Tree.ofMembers_cons rfl rfl (by simp), Tree.ofMembers_cons rfl rfl (by simp)]
    rfl
  have hshare :
      (bytesFound "msg_hash" request.hash ++ request.found).lookup "share_data" = none := by
    cases request.hash <;> rfl
  have hend := ofMembers_bytesMember request.share rfl hshare []
  rw [List.append_nil] at hend
  rw [toValue, Value.tree, Tree.record, List.append_assoc, hbase,
    ofMembers_bytesMember request.hash rfl rfl, hend]
  cases request.hash <;> cases request.share <;> rfl

/-- **A request survives its way over the wire.** -/
theorem ofTree_ofText_render (request : ActionRequest) :
    ofTree (.ofText request.render) = .ok request := by
  rw [render, ofText_render (request.plain_toValue 0), ofTree, record_tree]
  obtain ⟨session, parties, threshold, action, hash, share⟩ := request
  cases hash <;> cases share <;>
    simp [bytesFound, bytesMember, found, Tree.Fields.get?, List.lookup_cons, bind, Except.bind,
      pure, Except.pure]

end ActionRequest

end Custody
