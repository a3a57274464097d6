import Custody.Json.Record
import Custody.Proofs.Json.Spelling
/-!
# Reading values back

A value is read back from either text that a program writes for it: `ofText_render` and
`ofText_renderLines` give the tree of the text, and `ofText?_render` the value itself. The values
that a program writes hold no numbers but naturals of 64 bits and are nested less deep than a reader
allows (`Plain`). The texts spell the tokens of the value (`writes_render`, `writes_lines`), from
which the tree is built container by container (`builds`). A tree has a value again if that is
within the limits of a reader (`Fits`, `value?_tree`).
-/

namespace Custody.Json

/-- A value whose containers are nested at most `depth` deep and whose numbers are naturals of 64
bits. -/
inductive Plain : (depth : Nat) → Value → Prop
  | null {depth : Nat} : Plain depth .null
  | bool {depth : Nat} (b : Bool) : Plain depth (.bool b)
  | nat {depth k : Nat} (h : k < UInt64.size) : Plain depth (.nat k)
  | string {depth : Nat} (s : String) : Plain depth (.string s)
  | array {depth : Nat} {items : List Value} (h : ∀ item ∈ items, Plain depth item) :
    Plain (depth + 1) (.array items)
  | object {depth : Nat} {members : List (String × Value)}
    (h : ∀ member ∈ members, Plain depth member.2) : Plain (depth + 1) (.object members)

/-! ## Texts of values -/

section Texts

open Lexer

/-- The text writes the value, whatever follows that ends a number. -/
def Writes (chars : List Char) (v : Value) : Prop :=
  ∀ ts rest, EndsNumber rest → Spelled ts rest → Spelled (v.tokens ++ ts) (chars ++ rest)

theorem writes_of_isFixed {t : Token} {v : Value} (ht : IsFixed t) (hv : v.tokens = [t]) :
    Writes t.chars v := by
  intro ts rest _ hrest
  rw [hv]
  exact hrest.fixed ht

theorem writes_nat (k : Nat) : Writes (Number.ofNat k).chars (.nat k) :=
  fun _ _ hends hrest => hrest.nat hends

theorem writes_nil_array : Writes ['[', ']'] (.array []) :=
  fun _ _ _ hrest => (hrest.fixed (t := .closeBracket) trivial).fixed (t := .openBracket) trivial

theorem writes_nil_object : Writes ['{', '}'] (.object []) :=
  fun _ _ _ hrest => (hrest.fixed (t := .closeBrace) trivial).fixed (t := .openBrace) trivial

/-- Spaces and nothing else. -/
def IsGap (gap : List Char) : Prop :=
  ∀ c ∈ gap, isSpace c

theorem isGap_nil : IsGap [] := by
  intro c hc
  simp at hc

theorem isGap_blank : IsGap [' '] := by
  intro c hc
  rw [List.mem_singleton] at hc
  rw [hc]
  rfl

theorem isGap_newLine (level : Nat) : IsGap (Value.newLine level) := by
  intro c hc
  rw [Value.newLine, List.mem_cons, List.mem_replicate] at hc
  rcases hc with rfl | ⟨-, rfl⟩ <;> rfl

theorem spelled_gap {gap : List Char} (hgap : IsGap gap) {ts : List Token} {rest : List Char}
    (h : Spelled ts rest) : Spelled ts (gap ++ rest) := by
  induction gap with
  | nil => exact h
  | cons c gap ih =>
    exact .space (hgap c List.mem_cons_self) (ih fun d hd => hgap d (List.mem_cons_of_mem c hd))

theorem endsNumber_of_isSpace {c : Char} (h : isSpace c) (rest : List Char) :
    EndsNumber (c :: rest) := by
  have hc : ((c = ' ' ∨ c = '\t') ∨ c = '\n') ∨ c = '\r' := by simpa [isSpace] using h
  rcases hc with ((rfl | rfl) | rfl) | rfl <;> exact ⟨by decide, by decide, by decide, by decide⟩

theorem endsNumber_gap {gap : List Char} (hgap : IsGap gap) {rest : List Char}
    (h : EndsNumber rest) : EndsNumber (gap ++ rest) := by
  cases gap with
  | nil => exact h
  | cons c gap => exact endsNumber_of_isSpace (hgap c List.mem_cons_self) _

section Containers

variable {gap : List Char} (hgap : IsGap gap) {colonGap : List Char} (hcolon : IsGap colonGap)
  {endGap : List Char} (hend : IsGap endGap) {write : Value → List Char}

/-- The text of further items of an array. -/
def itemChars (gap : List Char) (write : Value → List Char) (items : List Value) : List Char :=
  items.flatMap fun item => ',' :: (gap ++ write item)

/-- The text of a member of an object. -/
def memberText (colonGap : List Char) (write : Value → List Char) (member : String × Value) :
    List Char :=
  quoted member.1 ++ ':' :: (colonGap ++ write member.2)

/-- The text of further members of an object. -/
def memberChars (gap colonGap : List Char) (write : Value → List Char)
    (members : List (String × Value)) : List Char :=
  members.flatMap fun member => ',' :: (gap ++ memberText colonGap write member)

theorem endsNumber_of_comma (rest : List Char) : EndsNumber (',' :: rest) :=
  ⟨by decide, by decide, by decide, by decide⟩

theorem endsNumber_itemChars (items : List Value) {rest : List Char} (h : EndsNumber rest) :
    EndsNumber (itemChars gap write items ++ rest) := by
  cases items with
  | nil => exact h
  | cons item items => exact endsNumber_of_comma _

theorem endsNumber_memberChars (members : List (String × Value)) {rest : List Char}
    (h : EndsNumber rest) : EndsNumber (memberChars gap colonGap write members ++ rest) := by
  cases members with
  | nil => exact h
  | cons member members => exact endsNumber_of_comma _

include hgap in
theorem spelled_itemChars {items : List Value} (h : ∀ item ∈ items, Writes (write item) item)
    {ts : List Token} {rest : List Char} (hends : EndsNumber rest) (hrest : Spelled ts rest) :
    Spelled (Value.itemTokens items ++ ts) (itemChars gap write items ++ rest) := by
  induction items with
  | nil => exact hrest
  | cons item items ih =>
    have hitems := ih fun other hother => h other (List.mem_cons_of_mem item hother)
    have hitem := h item List.mem_cons_self _ _ (endsNumber_itemChars items hends) hitems
    have htext := (spelled_gap hgap hitem).fixed (t := .comma) trivial
    simpa only [Value.itemTokens, itemChars, List.flatMap_cons, List.append_assoc,
      List.cons_append, List.nil_append, Token.chars] using htext

include hcolon in
theorem spelled_memberText {member : String × Value} (h : Writes (write member.2) member.2)
    {ts : List Token} {rest : List Char} (hends : EndsNumber rest) (hrest : Spelled ts rest) :
    Spelled (.string (some member.1) :: .colon :: member.2.tokens ++ ts)
      (memberText colonGap write member ++ rest) := by
  have hvalue := spelled_gap hcolon (h _ _ hends hrest)
  have hname := (hvalue.fixed (t := .colon) trivial).fixed (t := .string (some member.1)) trivial
  simpa only [memberText, List.append_assoc, List.cons_append, List.nil_append, Token.chars,
    Option.getD_some] using hname

include hgap hcolon in
theorem spelled_memberChars {members : List (String × Value)}
    (h : ∀ member ∈ members, Writes (write member.2) member.2) {ts : List Token}
    {rest : List Char} (hends : EndsNumber rest) (hrest : Spelled ts rest) :
    Spelled (Value.memberTokens members ++ ts)
      (memberChars gap colonGap write members ++ rest) := by
  induction members with
  | nil => exact hrest
  | cons member members ih =>
    have hmembers := ih fun other hother => h other (List.mem_cons_of_mem member hother)
    have hmember := spelled_memberText hcolon (h member List.mem_cons_self)
      (endsNumber_memberChars members hends) hmembers
    have htext := (spelled_gap hgap hmember).fixed (t := .comma) trivial
    simpa only [Value.memberTokens, memberChars, List.flatMap_cons, List.append_assoc,
      List.cons_append, List.nil_append, Token.chars] using htext

include hgap hend in
theorem writes_array {item : Value} {items : List Value}
    (h : ∀ other ∈ item :: items, Writes (write other) other) :
    Writes ('[' :: (gap ++ write item ++ itemChars gap write items ++ endGap ++ [']']))
      (.array (item :: items)) := by
  intro ts rest _ hrest
  have hclose : EndsNumber (']' :: rest) := ⟨by decide, by decide, by decide, by decide⟩
  have hends := endsNumber_gap hend hclose
  have hlast := spelled_gap hend (hrest.fixed (t := .closeBracket) trivial)
  have hitems := spelled_itemChars hgap
    (fun other hother => h other (List.mem_cons_of_mem item hother)) hends hlast
  have hitem := spelled_gap hgap
    (h item List.mem_cons_self _ _ (endsNumber_itemChars items hends) hitems)
  have htext := hitem.fixed (t := .openBracket) trivial
  simpa only [Value.tokens, List.append_assoc, List.cons_append, List.nil_append, Token.chars]
    using htext

include hgap hcolon hend in
theorem writes_object {member : String × Value} {members : List (String × Value)}
    (h : ∀ other ∈ member :: members, Writes (write other.2) other.2) :
    Writes ('{' :: (gap ++ memberText colonGap write member ++
      memberChars gap colonGap write members ++ endGap ++ ['}']))
      (.object (member :: members)) := by
  intro ts rest _ hrest
  have hclose : EndsNumber ('}' :: rest) := ⟨by decide, by decide, by decide, by decide⟩
  have hends := endsNumber_gap hend hclose
  have hlast := spelled_gap hend (hrest.fixed (t := .closeBrace) trivial)
  have hmembers := spelled_memberChars hgap hcolon
    (fun other hother => h other (List.mem_cons_of_mem member hother)) hends hlast
  have hmember := spelled_gap hgap (spelled_memberText hcolon (h member List.mem_cons_self)
    (endsNumber_memberChars members hends) hmembers)
  have htext := hmember.fixed (t := .openBrace) trivial
  simpa only [Value.tokens, List.append_assoc, List.cons_append, List.nil_append, Token.chars]
    using htext

end Containers

theorem flatMap_itemTokens (items : List Value) :
    (Value.itemTokens items).flatMap Token.chars =
      itemChars [] (fun v => v.tokens.flatMap Token.chars) items := by
  induction items with
  | nil => rfl
  | cons item items ih => simp [Value.itemTokens, itemChars, Token.chars, ih]

theorem flatMap_memberTokens (members : List (String × Value)) :
    (Value.memberTokens members).flatMap Token.chars =
      memberChars [] [] (fun v => v.tokens.flatMap Token.chars) members := by
  induction members with
  | nil => rfl
  | cons member members ih =>
    simp [Value.memberTokens, memberChars, memberText, Token.chars, ih]

theorem itemLines_eq (level : Nat) (items : List Value) :
    Value.itemLines level items =
      itemChars (Value.newLine level) (Value.lines level) items := by
  induction items with
  | nil => rfl
  | cons item items ih => simp [Value.itemLines, itemChars, ih]

theorem memberLines_eq (level : Nat) (members : List (String × Value)) :
    Value.memberLines level members =
      memberChars (Value.newLine level) [' '] (Value.lines level) members := by
  induction members with
  | nil => rfl
  | cons member members ih => simp [Value.memberLines, memberChars, memberText, ih]

/-- The text without spaces writes the value. -/
theorem writes_render {depth : Nat} {v : Value} (h : Plain depth v) :
    Writes (v.tokens.flatMap Token.chars) v := by
  induction h with
  | null => exact writes_of_isFixed (t := .null) trivial rfl
  | bool b =>
    rw [show (Value.bool b).tokens.flatMap Token.chars = (Token.bool b).chars by
      simp [Value.tokens]]
    exact writes_of_isFixed (t := .bool b) trivial rfl
  | @nat _ k h =>
    rw [show (Value.nat k).tokens.flatMap Token.chars = (Number.ofNat k).chars by
      simp [Value.nat, Value.tokens, Token.chars]]
    exact writes_nat k
  | string s =>
    rw [show (Value.string s).tokens.flatMap Token.chars = (Token.string (some s)).chars by
      simp [Value.tokens]]
    exact writes_of_isFixed (t := .string (some s)) trivial rfl
  | @array _ items h ih =>
    cases items with
    | nil => exact writes_nil_array
    | cons item items =>
      rw [show (Value.array (item :: items)).tokens.flatMap Token.chars =
          '[' :: ([] ++ item.tokens.flatMap Token.chars ++
            itemChars [] (fun v => v.tokens.flatMap Token.chars) items ++ [] ++ [']']) by
        simp [Value.tokens, Token.chars, flatMap_itemTokens]]
      exact writes_array isGap_nil isGap_nil ih
  | @object _ members h ih =>
    cases members with
    | nil => exact writes_nil_object
    | cons member members =>
      rw [show (Value.object (member :: members)).tokens.flatMap Token.chars =
          '{' :: ([] ++ memberText [] (fun v => v.tokens.flatMap Token.chars) member ++
            memberChars [] [] (fun v => v.tokens.flatMap Token.chars) members ++ [] ++ ['}']) by
        simp [Value.tokens, Token.chars, flatMap_memberTokens, memberText]]
      exact writes_object isGap_nil isGap_nil isGap_nil ih

/-- The text over several lines writes the value. -/
theorem writes_lines {depth : Nat} {v : Value} (h : Plain depth v) (level : Nat) :
    Writes (v.lines level) v := by
  induction h generalizing level with
  | null => exact writes_of_isFixed (t := .null) trivial rfl
  | bool b => exact writes_of_isFixed (t := .bool b) trivial rfl
  | nat h => exact writes_nat _
  | string s => exact writes_of_isFixed (t := .string (some s)) trivial rfl
  | @array _ items h ih =>
    cases items with
    | nil => exact writes_nil_array
    | cons item items =>
      rw [show (Value.array (item :: items)).lines level =
          '[' :: (Value.newLine (level + 1) ++ item.lines (level + 1) ++
            itemChars (Value.newLine (level + 1)) (Value.lines (level + 1)) items ++
            Value.newLine level ++ [']']) by
        simp [Value.lines, itemLines_eq]]
      exact writes_array (isGap_newLine (level + 1)) (isGap_newLine level) fun item hitem =>
        ih item hitem (level + 1)
  | @object _ members h ih =>
    cases members with
    | nil => exact writes_nil_object
    | cons member members =>
      rw [show (Value.object (member :: members)).lines level =
          '{' :: (Value.newLine (level + 1) ++ memberText [' '] (Value.lines (level + 1)) member ++
            memberChars (Value.newLine (level + 1)) [' '] (Value.lines (level + 1)) members ++
            Value.newLine level ++ ['}']) by
        simp [Value.lines, memberLines_eq, memberText]]
      exact writes_object (isGap_newLine (level + 1)) isGap_blank (isGap_newLine level)
        fun member hmember => ih member hmember (level + 1)

end Texts

/-! ## Trees of values -/

namespace Value

mutual

/-- The tree of a value's text. -/
def tree : Value → Tree
  | null => .null
  | bool b => .bool b
  | number x => .number x
  | string s => .string (some s)
  | array items => .array (trees items)
  | object members => .object (memberTrees members)

/-- The trees of a list of values. -/
def trees : List Value → List Tree
  | [] => []
  | item :: rest => item.tree :: trees rest

/-- The trees of a list of members. -/
def memberTrees : List (String × Value) → List (Option String × Tree)
  | [] => []
  | (name, value) :: rest => (some name, value.tree) :: memberTrees rest

end

end Value

/-- What holds of an array if it does of its items, and of an object if it does of what its members
hold, holds of all values. -/
@[elab_as_elim]
theorem Value.induction {motive : Value → Prop} (null : motive .null)
    (bool : ∀ b, motive (.bool b)) (number : ∀ x, motive (.number x))
    (string : ∀ s, motive (.string s))
    (array : ∀ items, (∀ item ∈ items, motive item) → motive (.array items))
    (object : ∀ members, (∀ member ∈ members, motive member.2) → motive (.object members)) :
    (v : Value) → motive v
  | .null => null
  | .bool b => bool b
  | .number x => number x
  | .string s => string s
  | .array items => array items fun item _ =>
    Value.induction null bool number string array object item
  | .object members => object members fun member hmember =>
    have : sizeOf member < sizeOf members := List.sizeOf_lt_of_mem hmember
    have : sizeOf member.2 < sizeOf member := by
      obtain ⟨name, value⟩ := member
      simp
    Value.induction null bool number string array object member.2

section Trees

open Builder

/-- The tokens of a value are built into its tree, whatever containers are open. -/
def Builds (v : Value) : Prop :=
  ∀ stack, v.tokens.foldl step (.value stack) = put v.tree stack

/-- The first item of an array is read like any other. -/
theorem foldl_firstItem (v : Value) (stack : List Frame) :
    v.tokens.foldl step (.firstItem stack) = v.tokens.foldl step (.value (.array [] :: stack)) := by
  cases v with
  | array items => cases items <;> rfl
  | object members => cases members <;> rfl
  | _ => rfl

theorem foldl_itemTokens {items : List Value} (h : ∀ item ∈ items, Builds item)
    (done : List Tree) (stack : List Frame) :
    (Value.itemTokens items).foldl step (.afterItem done stack) =
      .afterItem ((Value.trees items).reverse ++ done) stack := by
  induction items generalizing done with
  | nil => rfl
  | cons item items ih =>
    have hcomma : step (.afterItem done stack) .comma = .value (.array done :: stack) := rfl
    have hput : put item.tree (.array done :: stack) = .afterItem (item.tree :: done) stack := rfl
    rw [Value.itemTokens, List.cons_append, List.foldl_cons, hcomma, List.foldl_append,
      h item List.mem_cons_self, hput,
      ih fun other hother => h other (List.mem_cons_of_mem item hother), Value.trees,
      List.reverse_cons, List.append_assoc, List.singleton_append]

theorem foldl_memberTokens {members : List (String × Value)}
    (h : ∀ member ∈ members, Builds member.2) (done : List (Option String × Tree))
    (stack : List Frame) :
    (Value.memberTokens members).foldl step (.afterMember done stack) =
      .afterMember ((Value.memberTrees members).reverse ++ done) stack := by
  induction members generalizing done with
  | nil => rfl
  | cons member members ih =>
    have hname : [.comma, .string (some member.1), .colon].foldl step (.afterMember done stack) =
        .value (.object done (some member.1) :: stack) := rfl
    have hput : put member.2.tree (.object done (some member.1) :: stack) =
        .afterMember ((some member.1, member.2.tree) :: done) stack := rfl
    rw [Value.memberTokens, show Token.comma :: .string (some member.1) :: .colon ::
        member.2.tokens ++ Value.memberTokens members =
        [.comma, .string (some member.1), .colon] ++
          (member.2.tokens ++ Value.memberTokens members) from rfl,
      List.foldl_append, hname, List.foldl_append, h member List.mem_cons_self, hput,
      ih fun other hother => h other (List.mem_cons_of_mem member hother), Value.memberTrees,
      List.reverse_cons, List.append_assoc, List.singleton_append]

/-- **The tokens of a value are built into its tree.** -/
theorem builds (v : Value) : Builds v := by
  induction v using Value.induction with
  | null => exact fun stack => rfl
  | bool b => exact fun stack => rfl
  | number x => exact fun stack => rfl
  | string s => exact fun stack => rfl
  | array items ih =>
    intro stack
    cases items with
    | nil => rfl
    | cons item items =>
      have hopen : step (.value stack) .openBracket = .firstItem stack := rfl
      have hput : put item.tree (.array [] :: stack) = .afterItem [item.tree] stack := rfl
      rw [Value.tokens, List.cons_append, List.cons_append, List.append_assoc, List.foldl_cons,
        hopen, List.foldl_append, foldl_firstItem, ih item List.mem_cons_self, hput,
        List.foldl_append,
        foldl_itemTokens fun other hother => ih other (List.mem_cons_of_mem item hother)]
      simp [step, Value.tree, Value.trees]
  | object members ih =>
    intro stack
    cases members with
    | nil => rfl
    | cons member members =>
      have hname : [.openBrace, .string (some member.1), .colon].foldl step (.value stack) =
          .value (.object [] (some member.1) :: stack) := rfl
      have hput : put member.2.tree (.object [] (some member.1) :: stack) =
          .afterMember [(some member.1, member.2.tree)] stack := rfl
      rw [Value.tokens, show Token.openBrace :: .string (some member.1) :: .colon ::
          member.2.tokens ++ Value.memberTokens members ++ [.closeBrace] =
          [.openBrace, .string (some member.1), .colon] ++
            (member.2.tokens ++ (Value.memberTokens members ++ [.closeBrace])) by simp,
        List.foldl_append, hname, List.foldl_append, ih member List.mem_cons_self, hput,
        List.foldl_append,
        foldl_memberTokens fun other hother => ih other (List.mem_cons_of_mem member hother)]
      simp [step, Value.tree, Value.memberTrees]

/-- The tokens of a text that spells a value write its tree, and nothing follows it. -/
theorem ofTokens_of_spelled {v : Value} {chars : List Char} (h : Lexer.Spelled v.tokens chars) :
    Tree.ofTokens (Lexer.tokens chars) = (v.tree, false) := by
  have hbuilt : v.tokens.foldl step (.value []) = .done v.tree false := builds v []
  simp only [Lexer.tokens_of_spelled h, Tree.ofTokens, hbuilt]

/-- A text that spells a value has its tree. -/
theorem ofText_of_spelled {v : Value} {text : String} (h : Lexer.Spelled v.tokens text.toList) :
    Tree.ofText text = v.tree := by
  simp only [Tree.ofText, ofTokens_of_spelled h]

/-- What writes a value spells its tokens. -/
theorem Writes.spelled {v : Value} {chars : List Char} (h : Writes chars v) :
    Lexer.Spelled v.tokens chars := by
  have hspelled := h [] [] trivial .nil
  rwa [List.append_nil, List.append_nil] at hspelled

end Trees

theorem ofPrefix_render {depth : Nat} {v : Value} (h : Plain depth v) :
    Tree.ofPrefix v.render = v.tree := by
  rw [Tree.ofPrefix, Value.render, String.toList_ofList,
    ofTokens_of_spelled (writes_render h).spelled]

theorem ofText_render {depth : Nat} {v : Value} (h : Plain depth v) :
    Tree.ofText v.render = v.tree :=
  ofText_of_spelled (String.toList_ofList ▸ (writes_render h).spelled)

theorem ofText_renderLines {depth : Nat} {v : Value} (h : Plain depth v) :
    Tree.ofText v.renderLines = v.tree :=
  ofText_of_spelled (String.toList_ofList ▸ (writes_lines h 0).spelled)

/-! ## Values of trees -/

theorem ofDigits_append (digits : List Nat) (d : Nat) :
    ofDigits (digits ++ [d]) = ofDigits digits * 10 + d := by
  rw [ofDigits, List.foldl_append]
  rfl

theorem ofDigits_digitsOf (k : Nat) : ofDigits (digitsOf k) = k := by
  fun_induction digitsOf k with
  | case1 k h => simp [ofDigits]
  | case2 k h ih =>
    rw [ofDigits_append, ih]
    omega

theorem toNat?_ofNat (k : Nat) : (Number.ofNat k).toNat? = some k := by
  simp [Number.toNat?, Number.ofNat, ofDigits_digitsOf]

theorem le_foldl_digits (digits : List Nat) (k : Nat) :
    k ≤ digits.foldl (fun k d => k * 10 + d) k := by
  induction digits generalizing k with
  | nil => exact Nat.le_refl k
  | cons d rest ih =>
    have hnext : k ≤ k * 10 + d := by omega
    exact hnext.trans (ih (k * 10 + d))

/-- Digits that write a number of 64 bits are all taken in. -/
theorem scale_takeWhole (digits : List Nat) {k : Nat}
    (h : digits.foldl (fun k d => k * 10 + d) k < UInt64.size) :
    (Number.Scaled.takeWhole k digits).scale = 0 := by
  induction digits generalizing k with
  | nil => rfl
  | cons d rest ih =>
    have hnext : k * 10 + d < UInt64.size := (le_foldl_digits rest (k * 10 + d)).trans_lt h
    rw [Number.Scaled.takeWhole, if_pos hnext, ih h]

theorem isFinite_ofNat {k : Nat} (h : k < UInt64.size) : (Number.ofNat k).isFinite := by
  have hscale : (Number.ofNat k).scaled.scale = 0 :=
    scale_takeWhole (digitsOf k) (k := 0) ((ofDigits_digitsOf k).trans_lt h)
  simp [Number.isFinite, hscale]

theorem values?_trees {depth : Nat} {items : List Value}
    (h : ∀ item ∈ items, item.tree.value? depth = some item) :
    Tree.values? depth (Value.trees items) = some items := by
  induction items with
  | nil => rfl
  | cons item items ih =>
    rw [Value.trees, Tree.values?, h item List.mem_cons_self,
      ih fun other hother => h other (List.mem_cons_of_mem item hother)]

theorem members?_memberTrees {depth : Nat} {members : List (String × Value)}
    (h : ∀ member ∈ members, member.2.tree.value? depth = some member.2) :
    Tree.members? depth (Value.memberTrees members) = some members := by
  induction members with
  | nil => rfl
  | cons member members ih =>
    have hmember := h member List.mem_cons_self
    have hmembers := ih fun other hother => h other (List.mem_cons_of_mem member hother)
    simp only [Value.memberTrees, Tree.members?, hmember, hmembers]

/-- A value whose containers are nested at most `depth` deep and whose numbers are finite. -/
inductive Fits : (depth : Nat) → Value → Prop
  | null {depth : Nat} : Fits depth .null
  | bool {depth : Nat} (b : Bool) : Fits depth (.bool b)
  | number {depth : Nat} {x : Number} (h : x.isFinite) : Fits depth (.number x)
  | string {depth : Nat} (s : String) : Fits depth (.string s)
  | array {depth : Nat} {items : List Value} (h : ∀ item ∈ items, Fits depth item) :
    Fits (depth + 1) (.array items)
  | object {depth : Nat} {members : List (String × Value)}
    (h : ∀ member ∈ members, Fits depth member.2) : Fits (depth + 1) (.object members)

theorem Plain.fits {depth : Nat} {v : Value} (h : Plain depth v) : Fits depth v := by
  induction h with
  | null => exact .null
  | bool b => exact .bool b
  | nat h => exact .number (isFinite_ofNat h)
  | string s => exact .string s
  | array h ih => exact .array ih
  | object h ih => exact .object ih

/-- The value within the limits of a reader is read off its tree. -/
theorem value?_tree {depth : Nat} {v : Value} (h : Fits depth v) :
    v.tree.value? depth = some v := by
  induction h with
  | null => rfl
  | bool b => rfl
  | number h => rw [Value.tree, Tree.value?, if_pos h]
  | string s => rfl
  | array h ih =>
    rw [Value.tree, Tree.value?, if_neg (Nat.succ_ne_zero _), Nat.add_sub_cancel, values?_trees ih]
    rfl
  | object h ih =>
    rw [Value.tree, Tree.value?, if_neg (Nat.succ_ne_zero _), Nat.add_sub_cancel,
      members?_memberTrees ih]
    rfl

/-- A value is read back from the text without spaces. -/
theorem ofText?_render {v : Value} (h : Plain maxDepth v) : Value.ofText? v.render = some v := by
  rw [Value.ofText?, ofText_render h, value?_tree h.fits]

/-! ## Records -/

/-- A member whose field has not been given before, and accepts its value, is read. -/
theorem Tree.ofMembers_cons {fields : List Field} {found : Fields} {field : Field} {name : String}
    {value : Tree} (hfield : fields.find? (fun field => field.name == name) = some field)
    (hnew : found.lookup name = none) (haccepts : field.accepts value = true)
    (rest : List (Option String × Tree)) :
    ofMembers fields found ((some name, value) :: rest) =
      ofMembers fields ((name, value) :: found) rest := by
  simp [ofMembers, hfield, hnew, haccepts]

end Custody.Json
