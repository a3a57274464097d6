import Custody.Proofs.Json.RoundTrip
import Custody.Proofs.Json.Splitting
/-!
# Texts that are read

What is read has been written: a text has a value only if it spells the value's tokens, and the
value is within the limits of a reader (`Value.ofText?_eq_some_iff`). The machine that builds the
tree has always read the tokens that its open containers stand for (`Builder.Reads`). One token
keeps that (`Builder.reads_step`), unless the text stops being JSON; then the tree is cut somewhere
and has no value (`Tree.valueless_stop`).

* `Tree.eq_tokens_of_ofTokens`: a tree with a value is built from its own tokens.
* `Tree.value?_eq_some_iff`: the value of a tree.
-/

namespace Custody.Json

/-! ## Trees -/

namespace Tree

mutual

/-- The tokens that a tree is built from. -/
def tokens : Tree → List Token
  | null => [.null]
  | bool b => [.bool b]
  | number x => [.number x]
  | string s => [.string s]
  | array items => .openBracket :: (itemTokens items).tail ++ [.closeBracket]
  | object members => .openBrace :: (memberTokens members).tail ++ [.closeBrace]
  | cut => [.invalid]

/-- The tokens of items, with a comma before each. -/
def itemTokens : List Tree → List Token
  | [] => []
  | item :: rest => .comma :: item.tokens ++ itemTokens rest

/-- The tokens of members, with a comma before each. -/
def memberTokens : List (Option String × Tree) → List Token
  | [] => []
  | (name, value) :: rest =>
    .comma :: .string name :: .colon :: value.tokens ++ memberTokens rest

end

theorem itemTokens_append (items more : List Tree) :
    itemTokens (items ++ more) = itemTokens items ++ itemTokens more := by
  induction items with
  | nil => rfl
  | cons item rest ih => simp [itemTokens, ih]

theorem memberTokens_append (members more : List (Option String × Tree)) :
    memberTokens (members ++ more) = memberTokens members ++ memberTokens more := by
  induction members with
  | nil => rfl
  | cons member rest ih => simp [memberTokens, ih]

/-- The tokens before the last item, and its own. -/
theorem tail_itemTokens_snoc (items : List Tree) (item : Tree) :
    (itemTokens (items ++ [item])).tail =
      (itemTokens items ++ [Token.comma]).tail ++ item.tokens := by
  rw [itemTokens_append]
  cases items <;> simp [itemTokens]

theorem tail_memberTokens_snoc (members : List (Option String × Tree)) (name : Option String)
    (value : Tree) :
    (memberTokens (members ++ [(name, value)])).tail =
      (memberTokens members ++ [Token.comma, .string name, .colon]).tail ++ value.tokens := by
  rw [memberTokens_append]
  cases members <;> simp [memberTokens]

end Tree

/-- The tokens that an open container stands for. -/
def Frame.tokens : Frame → List Token
  | .array items => .openBracket :: (Tree.itemTokens items.reverse ++ [Token.comma]).tail
  | .object members name =>
    .openBrace :: (Tree.memberTokens members.reverse ++ [Token.comma, .string name, .colon]).tail

namespace Builder

open Custody.Json.Tree (itemTokens memberTokens)

/-- The tokens that open containers stand for. -/
def opened : List Frame → List Token
  | [] => []
  | frame :: stack => opened stack ++ frame.tokens

/-- The machine is in this state when it has read the tokens. Once something follows a value, or
the text stops being JSON, nothing is said of them. -/
inductive Reads : State → List Token → Prop
  | value (stack : List Frame) : Reads (.value stack) (opened stack)
  | firstItem (stack : List Frame) : Reads (.firstItem stack) (opened stack ++ [.openBracket])
  | firstMember (stack : List Frame) : Reads (.firstMember stack) (opened stack ++ [.openBrace])
  | name (member : Option String × Tree) (members : List (Option String × Tree))
    (stack : List Frame) :
    Reads (.name (member :: members) stack)
      (opened stack ++ .openBrace :: (memberTokens (member :: members).reverse).tail ++ [.comma])
  | colon (members : List (Option String × Tree)) (name : Option String) (stack : List Frame) :
    Reads (.colon members name stack)
      (opened stack ++
        .openBrace :: (memberTokens members.reverse ++ [Token.comma, .string name]).tail)
  | afterItem (item : Tree) (items : List Tree) (stack : List Frame) :
    Reads (.afterItem (item :: items) stack)
      (opened stack ++ .openBracket :: (itemTokens (item :: items).reverse).tail)
  | afterMember (member : Option String × Tree) (members : List (Option String × Tree))
    (stack : List Frame) :
    Reads (.afterMember (member :: members) stack)
      (opened stack ++ .openBrace :: (memberTokens (member :: members).reverse).tail)
  | done (tree : Tree) : Reads (.done tree false) tree.tokens
  | more (tree : Tree) (ts : List Token) : Reads (.done tree true) ts

/-- A complete value. -/
theorem reads_put (tree : Tree) (stack : List Frame) :
    Reads (put tree stack) (opened stack ++ tree.tokens) := by
  cases stack with
  | nil => exact .done tree
  | cons frame stack =>
    cases frame with
    | array items =>
      have hitem := Reads.afterItem tree items stack
      rw [List.reverse_cons, Tree.tail_itemTokens_snoc] at hitem
      simpa [put, opened, Frame.tokens] using hitem
    | object members name =>
      have hmember := Reads.afterMember (name, tree) members stack
      rw [List.reverse_cons, Tree.tail_memberTokens_snoc] at hmember
      simpa [put, opened, Frame.tokens] using hmember

/-- The first token of a value. -/
theorem reads_begin (t : Token) (stack : List Frame) (s : State) :
    Reads (begin t stack s) (opened stack ++ [t]) := by
  cases t with
  | null => exact reads_put .null stack
  | bool b => exact reads_put (.bool b) stack
  | number x => exact reads_put (.number x) stack
  | string s => exact reads_put (.string s) stack
  | openBracket => exact .firstItem stack
  | openBrace => exact .firstMember stack
  | _ => exact .more _ _

/-- The first item of an array is read like any other. -/
theorem step_firstItem {t : Token} (h : t ≠ .closeBracket) (stack : List Frame) :
    step (.firstItem stack) t = begin t (.array [] :: stack) (.firstItem stack) := by
  cases t <;> first | rfl | exact absurd rfl h

/-- **What one token does** to a builder that has read some. -/
theorem reads_step {s : State} {ts : List Token} (h : Reads s ts) (t : Token) :
    Reads (step s t) (ts ++ [t]) := by
  cases h with
  | value stack => exact reads_begin t stack _
  | firstItem stack =>
    by_cases ht : t = .closeBracket
    · subst ht
      simpa [step, Tree.tokens, itemTokens] using reads_put (.array []) stack
    · rw [step_firstItem ht]
      simpa [opened, Frame.tokens, itemTokens] using
        reads_begin t (.array [] :: stack) (.firstItem stack)
  | firstMember stack =>
    cases t with
    | closeBrace =>
      simpa [step, Tree.tokens, memberTokens] using reads_put (.object []) stack
    | string name => simpa [step, memberTokens] using Reads.colon [] name stack
    | _ => exact .more _ _
  | name member members stack =>
    cases t with
    | string name =>
      have hcolon := Reads.colon (member :: members) name stack
      rw [List.tail_append_of_ne_nil (by simp [Tree.memberTokens_append, memberTokens])] at hcolon
      simpa [step] using hcolon
    | _ => exact .more _ _
  | colon members name stack =>
    cases t with
    | colon =>
      have hvalue := Reads.value (.object members name :: stack)
      rw [opened, Frame.tokens, show [Token.comma, .string name, .colon] =
        [.comma, .string name] ++ [.colon] from rfl, ← List.append_assoc,
        List.tail_append_of_ne_nil (by simp)] at hvalue
      simpa [step] using hvalue
    | _ => exact .more _ _
  | afterItem item items stack =>
    cases t with
    | comma =>
      have hvalue := Reads.value (.array (item :: items) :: stack)
      rw [opened, Frame.tokens,
        List.tail_append_of_ne_nil (by simp [Tree.itemTokens_append, itemTokens])] at hvalue
      simpa [step] using hvalue
    | closeBracket =>
      simpa [step, Tree.tokens] using reads_put (.array (item :: items).reverse) stack
    | _ => exact .more _ _
  | afterMember member members stack =>
    cases t with
    | comma => simpa [step] using Reads.name member members stack
    | closeBrace =>
      simpa [step, Tree.tokens] using reads_put (.object (member :: members).reverse) stack
    | _ => exact .more _ _
  | done tree => exact .more _ _
  | more tree ts => exact .more _ _

theorem reads_foldl {s : State} {read : List Token} (h : Reads s read) (ts : List Token) :
    Reads (ts.foldl step s) (read ++ ts) := by
  induction ts generalizing s read with
  | nil => rwa [List.append_nil]
  | cons t rest ih => simpa using ih (reads_step h t)

end Builder

/-! ## Values of trees -/

namespace Tree

/-- A list of trees one of which has no value. -/
theorem values?_eq_none {depth : Nat} {items : List Tree} {item : Tree} (h : item ∈ items)
    (hitem : item.value? depth = none) : values? depth items = none := by
  induction items with
  | nil => cases h
  | cons first rest ih =>
    rw [values?]
    rcases List.mem_cons.1 h with rfl | h
    · simp [hitem]
    · simp [ih h]

theorem members?_eq_none {depth : Nat} {members : List (Option String × Tree)}
    {member : Option String × Tree} (h : member ∈ members)
    (hmember : member.2.value? depth = none) : members? depth members = none := by
  induction members with
  | nil => cases h
  | cons first rest ih =>
    obtain ⟨name, value⟩ := first
    rw [members?]
    rcases List.mem_cons.1 h with rfl | h
    · simp [hmember]
    · simp [ih h]

/-- The tree has no value, whatever the limit is. -/
def Valueless (tree : Tree) : Prop :=
  ∀ depth, tree.value? depth = none

theorem valueless_cut : cut.Valueless :=
  fun _ => rfl

theorem valueless_array {items : List Tree} {item : Tree} (h : item ∈ items)
    (hitem : item.Valueless) : (array items).Valueless := by
  intro depth
  rw [value?, values?_eq_none h (hitem _)]
  exact ite_self none

theorem valueless_object {members : List (Option String × Tree)} {name : Option String}
    {value : Tree} (h : (name, value) ∈ members) (hvalue : value.Valueless) :
    (object members).Valueless := by
  intro depth
  rw [value?, members?_eq_none h (hvalue _)]
  exact ite_self none

/-- What is around a tree without value has none. -/
theorem valueless_close {tree : Tree} (h : tree.Valueless) (stack : List Frame) :
    (Builder.close tree stack).Valueless := by
  induction stack generalizing tree with
  | nil => exact h
  | cons frame stack ih =>
    cases frame with
    | array items => exact ih (valueless_array (List.mem_reverse.2 List.mem_cons_self) h)
    | object members name => exact ih (valueless_object (List.mem_reverse.2 List.mem_cons_self) h)

/-- A tree that is cut has no value. -/
theorem valueless_stop {s : Builder.State} (h : ∀ tree more, s ≠ .done tree more) :
    (Builder.stop s).Valueless := by
  cases s with
  | value stack => exact valueless_close valueless_cut stack
  | firstItem stack => exact valueless_close valueless_cut (.array [] :: stack)
  | firstMember stack => exact valueless_close valueless_cut (.object [] none :: stack)
  | name members stack => exact valueless_close valueless_cut (.object members none :: stack)
  | colon members name stack => exact valueless_close valueless_cut (.object members name :: stack)
  | afterItem items stack => exact valueless_close valueless_cut (.array items :: stack)
  | afterMember members stack => exact valueless_close valueless_cut (.object members none :: stack)
  | done tree more => exact absurd rfl (h tree more)

/-- **A tree with a value is built from its own tokens**, if nothing follows them. -/
theorem eq_tokens_of_ofTokens {ts : List Token} {tree : Tree} {depth : Nat} {v : Value}
    (h : ofTokens ts = (tree, false)) (hv : tree.value? depth = some v) : ts = tree.tokens := by
  have hreads := Builder.reads_foldl (.value []) ts
  rw [Builder.opened, List.nil_append] at hreads
  unfold ofTokens at h
  split at h
  · next built more hstate =>
    obtain ⟨rfl, rfl⟩ := Prod.mk.inj h
    rw [hstate] at hreads
    cases hreads
    rfl
  · next hstate =>
    obtain ⟨rfl, -⟩ := Prod.mk.inj h
    rw [valueless_stop hstate depth] at hv
    cases hv

mutual

/-- A tree that has a value is the tree of that. -/
theorem eq_tree_of_value? {depth : Nat} {v : Value} :
    {tree : Tree} → tree.value? depth = some v → tree = v.tree ∧ Fits depth v
  | null, h => by
    obtain rfl := Option.some.inj h
    exact ⟨rfl, .null⟩
  | bool b, h => by
    obtain rfl := Option.some.inj h
    exact ⟨rfl, .bool b⟩
  | number x, h => by
    rw [value?] at h
    split at h
    · next hx =>
      obtain rfl := Option.some.inj h
      exact ⟨rfl, .number hx⟩
    · cases h
  | string s, h => by
    obtain ⟨s, rfl, rfl⟩ := Option.map_eq_some_iff.1 h
    exact ⟨rfl, .string s⟩
  | array items, h => by
    rw [value?] at h
    split at h
    · cases h
    · next hdepth =>
      obtain ⟨values, hvalues, rfl⟩ := Option.map_eq_some_iff.1 h
      obtain ⟨rfl, hfits⟩ := eq_trees_of_values? hvalues
      refine ⟨rfl, ?_⟩
      obtain ⟨depth, rfl⟩ := Nat.exists_eq_succ_of_ne_zero hdepth
      exact .array hfits
  | object members, h => by
    rw [value?] at h
    split at h
    · cases h
    · next hdepth =>
      obtain ⟨values, hvalues, rfl⟩ := Option.map_eq_some_iff.1 h
      obtain ⟨rfl, hfits⟩ := eq_memberTrees_of_members? hvalues
      refine ⟨rfl, ?_⟩
      obtain ⟨depth, rfl⟩ := Nat.exists_eq_succ_of_ne_zero hdepth
      exact .object hfits

theorem eq_trees_of_values? {depth : Nat} {values : List Value} :
    {items : List Tree} → values? depth items = some values →
      items = Value.trees values ∧ ∀ v ∈ values, Fits depth v
  | [], h => by
    obtain rfl := Option.some.inj h
    exact ⟨rfl, List.forall_mem_nil _⟩
  | item :: rest, h => by
    rw [values?] at h
    split at h
    · next first more hfirst hmore =>
      obtain rfl := Option.some.inj h
      obtain ⟨rfl, hfits⟩ := eq_tree_of_value? hfirst
      obtain ⟨rfl, hrest⟩ := eq_trees_of_values? hmore
      exact ⟨rfl, List.forall_mem_cons.2 ⟨hfits, hrest⟩⟩
    · cases h

theorem eq_memberTrees_of_members? {depth : Nat} {values : List (String × Value)} :
    {members : List (Option String × Tree)} → members? depth members = some values →
      members = Value.memberTrees values ∧ ∀ member ∈ values, Fits depth member.2
  | [], h => by
    obtain rfl := Option.some.inj h
    exact ⟨rfl, List.forall_mem_nil _⟩
  | (name, value) :: rest, h => by
    unfold members? at h
    split at h
    · next name first more hfirst hmore =>
      obtain rfl := Option.some.inj h
      obtain ⟨rfl, hfits⟩ := eq_tree_of_value? hfirst
      obtain ⟨rfl, hrest⟩ := eq_memberTrees_of_members? hmore
      exact ⟨rfl, List.forall_mem_cons.2 ⟨hfits, hrest⟩⟩
    · cases h

end

/-- **The value of a tree** is the one whose tree it is, within the limits of a reader. -/
theorem value?_eq_some_iff {tree : Tree} {depth : Nat} {v : Value} :
    tree.value? depth = some v ↔ tree = v.tree ∧ Fits depth v := by
  constructor
  · exact eq_tree_of_value?
  · rintro ⟨rfl, hfits⟩
    exact value?_tree hfits

end Tree

/-! ## Values of texts -/

namespace Value

theorem itemTokens_trees {items : List Value} (h : ∀ item ∈ items, item.tree.tokens = item.tokens) :
    Tree.itemTokens (trees items) = itemTokens items := by
  induction items with
  | nil => rfl
  | cons item rest ih =>
    rw [trees, Tree.itemTokens, itemTokens, h item List.mem_cons_self,
      ih fun other hother => h other (List.mem_cons_of_mem item hother)]

theorem memberTokens_memberTrees {members : List (String × Value)}
    (h : ∀ member ∈ members, member.2.tree.tokens = member.2.tokens) :
    Tree.memberTokens (memberTrees members) = memberTokens members := by
  induction members with
  | nil => rfl
  | cons member rest ih =>
    rw [memberTrees, Tree.memberTokens, memberTokens, h member List.mem_cons_self,
      ih fun other hother => h other (List.mem_cons_of_mem member hother)]

theorem tokens_array (items : List Value) :
    (array items).tokens = .openBracket :: (itemTokens items).tail ++ [.closeBracket] := by
  cases items <;> simp [tokens, itemTokens]

theorem tokens_object (members : List (String × Value)) :
    (object members).tokens = .openBrace :: (memberTokens members).tail ++ [.closeBrace] := by
  cases members <;> simp [tokens, memberTokens]

/-- The tokens of a value are those of its tree. -/
theorem tokens_tree (v : Value) : v.tree.tokens = v.tokens := by
  induction v using Value.induction with
  | null => rfl
  | bool b => rfl
  | number x => rfl
  | string s => rfl
  | array items ih => rw [tree, Tree.tokens, itemTokens_trees ih, tokens_array]
  | object members ih => rw [tree, Tree.tokens, memberTokens_memberTrees ih, tokens_object]

theorem isProper_of_mem_itemTokens {items : List Value}
    (h : ∀ item ∈ items, ∀ t ∈ item.tokens, t.IsProper) : ∀ t ∈ itemTokens items, t.IsProper := by
  induction items with
  | nil => exact List.forall_mem_nil _
  | cons item rest ih =>
    rw [List.forall_mem_cons] at h
    simp only [itemTokens, List.cons_append, List.forall_mem_cons, List.forall_mem_append]
    exact ⟨Token.IsWord.isProper trivial, h.1, ih h.2⟩

theorem isProper_of_mem_memberTokens {members : List (String × Value)}
    (h : ∀ member ∈ members, ∀ t ∈ member.2.tokens, t.IsProper) :
    ∀ t ∈ memberTokens members, t.IsProper := by
  induction members with
  | nil => exact List.forall_mem_nil _
  | cons member rest ih =>
    rw [List.forall_mem_cons] at h
    simp only [memberTokens, List.cons_append, List.forall_mem_cons, List.forall_mem_append]
    exact ⟨Token.IsWord.isProper trivial, Token.isProper_string _, Token.IsWord.isProper trivial,
      h.1, ih h.2⟩

/-- A value has proper tokens. -/
theorem isProper_of_mem_tokens (v : Value) : ∀ t ∈ v.tokens, t.IsProper := by
  induction v using Value.induction with
  | null => exact List.forall_mem_singleton.2 (Token.IsWord.isProper trivial)
  | bool b => exact List.forall_mem_singleton.2 (Token.IsWord.isProper trivial)
  | number x => exact List.forall_mem_singleton.2 (Token.isProper_number x)
  | string s => exact List.forall_mem_singleton.2 (Token.isProper_string s)
  | array items ih =>
    have hitems := isProper_of_mem_itemTokens ih
    simp only [tokens_array, List.cons_append, List.forall_mem_cons, List.forall_mem_append]
    exact ⟨Token.IsWord.isProper trivial, fun t ht => hitems t (List.mem_of_mem_tail ht),
      Token.IsWord.isProper trivial, List.forall_mem_nil _⟩
  | object members ih =>
    have hmembers := isProper_of_mem_memberTokens ih
    simp only [tokens_object, List.cons_append, List.forall_mem_cons, List.forall_mem_append]
    exact ⟨Token.IsWord.isProper trivial, fun t ht => hmembers t (List.mem_of_mem_tail ht),
      Token.IsWord.isProper trivial, List.forall_mem_nil _⟩

/-- **What is read has been written**: a text has the value whose tokens it spells, if that is
within the limits of a reader, and no other. -/
theorem ofText?_eq_some_iff {text : String} {v : Value} :
    ofText? text = some v ↔ Lexer.Spelled v.tokens text.toList ∧ Fits maxDepth v := by
  constructor
  · intro h
    unfold ofText? Tree.ofText at h
    split at h
    · next tree htree =>
      have hts := Tree.eq_tokens_of_ofTokens htree h
      obtain ⟨rfl, hfits⟩ := Tree.value?_eq_some_iff.1 h
      rw [tokens_tree] at hts
      refine ⟨?_, hfits⟩
      rw [← hts]
      exact Lexer.spelled_tokens (hts ▸ v.isProper_of_mem_tokens)
    · cases h
  · rintro ⟨hspelled, hfits⟩
    rw [ofText?, ofText_of_spelled hspelled, value?_tree hfits]

end Value

end Custody.Json
