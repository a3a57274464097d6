import Custody.Config
import Custody.Proofs.Session.Request
/-!
# Configurations on the wire

A configuration that is written and read back is the same but for its deadline, of which only the
whole milliseconds are written (`Config.ofTree_ofText_of_render?`). A valid one can always be
written, since a day has few milliseconds. What is read of it is valid again just when the deadline
was a millisecond at least (`Config.valid_inMillis_iff`): a shorter one becomes no time at all,
which no coordinator accepts. `Config.wire_roundTrip` puts this together.
-/

namespace Custody.Config

open Json

/-- The configuration with the whole milliseconds of its deadline. -/
def inMillis (config : Config) : Config :=
  { config with timeout := config.timeout / milli * milli }

/-- A day has few milliseconds. -/
theorem millis_lt_of_le {timeout : Nat} (h : timeout ≤ maxTimeout) :
    timeout / milli < UInt64.size := by
  refine Nat.lt_of_le_of_lt (Nat.div_le_div_right h) ?_
  decide

/-- **Valid configurations stay valid on the wire** just when they give a ceremony a millisecond at
least. -/
theorem valid_inMillis_iff {config : Config} (h : config.Valid) :
    config.inMillis.Valid ↔ milli ≤ config.timeout := by
  obtain ⟨hparties, -, hle⟩ := h
  have hmilli : 0 < milli := by decide
  have hdown : config.timeout / milli * milli ≤ config.timeout := Nat.div_mul_le_self _ _
  have hpos : 0 < config.timeout / milli * milli ↔ milli ≤ config.timeout := by
    rw [Nat.mul_pos_iff_of_pos_right hmilli, Nat.div_pos_iff]
    exact and_iff_right hmilli
  constructor
  · exact fun hvalid => hpos.1 hvalid.2.1
  · exact fun hlong => ⟨hparties, hpos.2 hlong, Nat.le_trans hdown hle⟩

/-! ## Writing -/

/-- The members of a configuration as they are written. -/
def members (config : Config) : List (String × Value) :=
  [("parties", .array (config.parties.map fun p => .nat p.toNat)),
    ("threshold", .nat config.threshold.toNat),
    ("ceremony_timeout", .nat (config.timeout / milli)),
    ("subscribe_before_trigger", .bool config.subscribeFirst)]

theorem toValue?_eq {config : Config} (h : config.timeout / milli < UInt64.size) :
    config.toValue? = some (.object config.members) :=
  if_pos h

theorem plain_members {config : Config} (h : config.timeout / milli < UInt64.size) (depth : Nat) :
    Plain (depth + 2) (.object config.members) := by
  refine .object fun member hmember => ?_
  simp only [members, List.mem_cons, List.not_mem_nil, or_false] at hmember
  rcases hmember with rfl | rfl | rfl | rfl
  · refine .array fun item hitem => ?_
    obtain ⟨party, -, rfl⟩ := List.mem_map.1 hitem
    exact .nat (ActionRequest.toNat_lt_size64 party)
  · exact .nat (ActionRequest.toNat_lt_size64 config.threshold)
  · exact .nat h
  · exact .bool _

/-! ## Reading back -/

@[simp] theorem timeout?_tree {millis : Nat} (h : millis < UInt64.size) :
    timeout? (Value.nat millis).tree = some (millis * milli) := by
  simp [timeout?, Value.nat, Value.tree, Tree.natBelow?, toNat?_ofNat, h]

@[simp] theorem bool?_tree (b : Bool) : (Value.bool b).tree.bool? = some b := by
  simp [Value.tree, Tree.bool?]

/-- All that is read of a configuration. -/
theorem record_tree {config : Config} (h : config.timeout / milli < UInt64.size) :
    (Value.object config.members).tree.record fields =
      .ok (config.members.map fun member => (member.1, member.2.tree)).reverse := by
  rw [Value.tree, Tree.record]
  simp only [members, Value.memberTrees]
  rw [Tree.ofMembers_cons rfl rfl (by simp), Tree.ofMembers_cons rfl rfl (by simp),
    Tree.ofMembers_cons rfl rfl (by simp [h]), Tree.ofMembers_cons rfl rfl (by simp)]
  rfl

theorem ofTree_tree {config : Config} (h : config.timeout / milli < UInt64.size) :
    ofTree (Value.object config.members).tree = .ok config.inMillis := by
  rw [ofTree, record_tree h]
  simp [members, Tree.Fields.get?, List.lookup_cons, h, inMillis, bind, Except.bind, pure,
    Except.pure]

/-- **Whoever reads the text of a configuration** has the configuration with the whole milliseconds
of its deadline. -/
theorem ofTree_ofText_of_render? {config : Config} {text : String}
    (h : config.render? = some text) : ofTree (.ofText text) = .ok config.inMillis := by
  obtain ⟨value, hvalue, rfl⟩ := Option.map_eq_some_iff.1 h
  have hfits : config.timeout / milli < UInt64.size := by
    by_contra hlarge
    rw [toValue?, if_neg hlarge] at hvalue
    cases hvalue
  rw [toValue?_eq hfits] at hvalue
  obtain rfl := Option.some.inj hvalue
  rw [ofText_render (plain_members hfits 0), ofTree_tree hfits]

/-- **A valid configuration can be written, and is read back with the whole milliseconds of its
deadline.** What is read is valid again just when the deadline is a millisecond or more. -/
theorem wire_roundTrip {config : Config} (h : config.Valid) :
    ∃ text, config.render? = some text ∧ Value.ofText? text = some (.object config.members) ∧
      ofTree (.ofText text) = .ok config.inMillis ∧
      (config.inMillis.fault? = none ↔ milli ≤ config.timeout) ∧
      (config.timeout < milli → config.inMillis.fault? = some .timeoutZero) := by
  have hfits := millis_lt_of_le h.2.2
  have hrender : config.render? = some (Value.object config.members).render := by
    rw [render?, toValue?_eq hfits, Option.map_some]
  refine ⟨_, hrender, ofText?_render (plain_members hfits 125),
    ofTree_ofText_of_render? hrender, ?_, fun hshort => ?_⟩
  · rw [fault?_eq_none_iff, valid_inMillis_iff h]
  · have hparties := Parties.fault?_eq_none_iff.2 h.1
    simp only [fault?, inMillis, hparties, Nat.div_eq_of_lt hshort, Nat.zero_mul, if_true]

/-- A configuration with a deadline of a day less a nanosecond is read back with a millisecond
less. -/
theorem wire_roundTrip_of_almostDay :
    Valid { standard with timeout := maxTimeout - 1 } ∧
      ∃ text, ({ standard with timeout := maxTimeout - 1 } : Config).render? = some text ∧
        ofTree (.ofText text) = .ok { standard with timeout := maxTimeout - milli } ∧
        fault? { standard with timeout := maxTimeout - milli } = none := by
  have hvalid : Valid { standard with timeout := maxTimeout - 1 } :=
    fault?_eq_none_iff.1 (by decide)
  obtain ⟨text, hrender, -, hread, hfault, -⟩ := wire_roundTrip hvalid
  exact ⟨hvalid, text, hrender, hread, hfault.2 (by decide)⟩

/-- The standard configuration with a deadline of a nanosecond. -/
def hasty : Config :=
  { standard with timeout := 1 }

/-- A configuration that is fit for use is written as one that is not. -/
theorem invalid_of_read_hasty :
    hasty.Valid ∧ ∃ text, hasty.render? = some text ∧
      ofTree (.ofText text) = .ok hasty.inMillis ∧ ¬ hasty.inMillis.Valid := by
  have hvalid : hasty.Valid := fault?_eq_none_iff.1 (by decide)
  have hrender : hasty.render? = some (Value.object hasty.members).render := rfl
  refine ⟨hvalid, _, hrender, ofTree_ofText_of_render? hrender, ?_⟩
  rw [valid_inMillis_iff hvalid]
  decide

end Custody.Config
