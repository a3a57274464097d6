import Custody.Rehearsal.World
/-!
# Agendas

An agenda holds what will happen in the order of time, a deadline after everything else of its
instant (`Precedes`, `Orderly`). Whatever is planned keeps this order. What is planned for others at
one time may be put together into one occurrence; apart from this an agenda gains just what is
planned (`Adds`).
-/

namespace Custody.Rehearsal

/-- What is planned, with its time. -/
abbrev Item := Nat × Occurrence

/-- The item comes before the other one, or may do so. -/
def Precedes (a b : Item) : Prop :=
  a.1 < b.1 ∨ a.1 = b.1 ∧ (a.2.isDeadline = true → b.2.isDeadline = true)

/-- The agenda is in order, and nothing in it is past. -/
structure Orderly (now : Nat) (agenda : List Item) : Prop where
  sorted : agenda.Pairwise Precedes
  le : ∀ x ∈ agenda, now ≤ x.1

variable {now time : Nat} {o : Occurrence} {agenda : List Item}

theorem Orderly.head {x : Item} (h : Orderly now (x :: agenda)) : ∀ y ∈ agenda, Precedes x y :=
  (List.pairwise_cons.1 h.sorted).1

/-- What is left when the first item happens. -/
theorem Orderly.tail {x : Item} (h : Orderly now (x :: agenda)) : Orderly x.1 agenda := by
  refine ⟨(List.pairwise_cons.1 h.sorted).2, fun y hy => ?_⟩
  rcases h.head y hy with hlt | ⟨he, -⟩
  · exact Nat.le_of_lt hlt
  · exact Nat.le_of_eq he

/-- Time may go on, up to the first item. -/
theorem Orderly.mono {later : Nat} {x : Item} (h : Orderly now (x :: agenda)) (hle : later ≤ x.1) :
    Orderly later (x :: agenda) := by
  refine ⟨h.sorted, fun y hy => ?_⟩
  rcases List.mem_cons.1 hy with rfl | hy
  · exact hle
  · exact Nat.le_trans hle (h.tail.le y hy)

/-! ## What is planned -/

theorem World.join?_eq_some_iff {first both : Occurrence} : World.join? first o = some both ↔
    ∃ ops more, first = .input (.outside ops) ∧ o = .input (.outside more) ∧
      both = .input (.outside (ops ++ more)) := by
  unfold World.join?
  split
  · next ops more => simp [eq_comm]
  · next h =>
    constructor
    · nofun
    · rintro ⟨ops, more, rfl, rfl, -⟩
      exact absurd rfl (h ops more rfl)

/-- `Adds now items before after`: these items have been added to an agenda, of which some that are
for others and for the same time may have been put together. -/
structure Adds (now : Nat) (items before after : List Item) : Prop where
  orderly : Orderly now before → Orderly now after
  perm : ∀ p : Item → Bool, (∀ time ops, p (time, .input (.outside ops)) = false) →
    (after.filter p).Perm ((items ++ before).filter p)
  forall_mem : ∀ P : Item → Prop,
    (∀ time ops more, P (time, .input (.outside ops)) → P (time, .input (.outside more)) →
      P (time, .input (.outside (ops ++ more)))) →
    (∀ x ∈ items ++ before, P x) → ∀ x ∈ after, P x
  length_le : after.length ≤ items.length + before.length

variable {items more before middle after : List Item}

theorem Adds.refl (now : Nat) (agenda : List Item) : Adds now [] agenda agenda :=
  ⟨id, fun _ _ => .refl _, fun _ _ h => h, by simp⟩

theorem Adds.trans (h : Adds now items before middle) (h' : Adds now more middle after) :
    Adds now (items ++ more) before after := by
  refine ⟨h'.orderly ∘ h.orderly, fun p hp => (h'.perm p hp).trans ?_, fun P hP hall => ?_, ?_⟩
  · rw [List.filter_append, List.append_assoc, List.filter_append]
    refine ((h.perm p hp).append_left _).trans ?_
    rw [List.filter_append, List.filter_append, ← List.append_assoc, ← List.append_assoc]
    exact List.perm_append_comm.append_right _
  · refine h'.forall_mem P hP fun x hx => ?_
    rcases List.mem_append.1 hx with hx | hx
    · exact hall x (by simp [hx])
    · exact h.forall_mem P hP (fun y hy => hall y (by
        rcases List.mem_append.1 hy with hy | hy <;> simp [hy])) x hx
  · have := h.length_le
    have := h'.length_le
    simp only [List.length_append]
    omega

theorem World.precedes_of_not_comesBefore {first : Occurrence} {t : Nat}
    (h : ¬ World.comesBefore time o t first = true) : Precedes (t, first) (time, o) := by
  simp only [World.comesBefore, Bool.or_eq_true, decide_eq_true_eq, Bool.and_eq_true, beq_iff_eq,
    Bool.not_eq_eq_eq_not, Bool.not_true, not_or, not_and, Bool.not_eq_false] at h
  rcases Nat.lt_or_eq_of_le (Nat.le_of_not_lt h.1) with hlt | he
  · exact .inl hlt
  · exact .inr ⟨he, fun hd => h.2 ⟨he.symm, hd⟩⟩

theorem World.precedes_of_comesBefore {first : Occurrence} {t : Nat}
    (h : World.comesBefore time o t first = true) : Precedes (time, o) (t, first) := by
  simp only [World.comesBefore, Bool.or_eq_true, decide_eq_true_eq, Bool.and_eq_true, beq_iff_eq]
    at h
  rcases h with hlt | ⟨⟨he, hd⟩, -⟩
  · exact .inl hlt
  · exact .inr ⟨he, fun _ => hd⟩

theorem Precedes.trans {a b c : Item} (h : Precedes a b) (h' : Precedes b c) : Precedes a c := by
  rcases h with h | ⟨he, hd⟩
  · rcases h' with h' | ⟨he', -⟩
    · exact .inl (Nat.lt_trans h h')
    · exact .inl (he' ▸ h)
  · rcases h' with h' | ⟨he', hd'⟩
    · exact .inl (he ▸ h')
    · exact .inr ⟨he.trans he', hd' ∘ hd⟩

/-- An item is put before all others. -/
theorem adds_front (ht : now ≤ time)
    (hfirst : Orderly now agenda → ∀ y ∈ agenda, Precedes (time, o) y) :
    Adds now [(time, o)] agenda ((time, o) :: agenda) := by
  refine ⟨fun h => ⟨List.pairwise_cons.2 ⟨hfirst h, h.sorted⟩, ?_⟩, fun _ _ => .refl _,
    fun _ _ h => h, by simp [Nat.add_comm]⟩
  exact List.forall_mem_cons.2 ⟨ht, h.le⟩

/-- What happens at once is put before everything else, unless it is a deadline. -/
theorem adds_now (ho : o.isDeadline = false) :
    Adds now [(now, o)] agenda ((now, o) :: agenda) := by
  refine adds_front (Nat.le_refl now) fun h y hy => ?_
  rcases Nat.lt_or_eq_of_le (h.le y hy) with hlt | he
  · exact .inl hlt
  · exact .inr ⟨he, by simp [ho]⟩

/-- What others do at one time is put together. -/
theorem adds_join (time : Nat) (ops more : List Outside) :
    Adds now [(time, .input (.outside more))] ((time, .input (.outside ops)) :: agenda)
      ((time, .input (.outside (ops ++ more))) :: agenda) := by
  refine ⟨fun h => ⟨List.pairwise_cons.2 ⟨fun y hy => ?_, h.tail.sorted⟩, ?_⟩,
    fun p hp => by simp [hp], fun P hP hall => ?_, Nat.le_add_left _ _⟩
  · rcases h.head y hy with hlt | ⟨he, -⟩
    · exact .inl hlt
    · exact .inr ⟨he, nofun⟩
  · exact List.forall_mem_cons.2 (List.forall_mem_cons.1 h.le)
  · obtain ⟨hmore, hops, hrest⟩ : P _ ∧ P _ ∧ ∀ x ∈ agenda, P x := by
      simpa only [List.singleton_append, List.forall_mem_cons] using hall
    exact List.forall_mem_cons.2 ⟨hP time ops more hops hmore, hrest⟩

/-- An item is put behind the first one. -/
theorem Adds.skip {x : Item} (h : Adds now [(time, o)] before after) (hx : Precedes x (time, o)) :
    Adds now [(time, o)] (x :: before) (x :: after) := by
  refine ⟨fun hb => ?_, fun p hp => ?_, fun P hP hall => ?_, ?_⟩
  · obtain ⟨hle, hrest⟩ := List.forall_mem_cons.1 hb.le
    have hafter := h.orderly ⟨hb.tail.sorted, hrest⟩
    refine ⟨List.pairwise_cons.2 ⟨?_, hafter.sorted⟩, List.forall_mem_cons.2 ⟨hle, hafter.le⟩⟩
    refine h.forall_mem (Precedes x) (fun time ops more hops _ => hops) ?_
    exact List.forall_mem_cons.2 ⟨hx, hb.head⟩
  · rw [List.singleton_append]
    refine List.Perm.trans ?_ ((List.Perm.swap (time, o) x before).filter p)
    have hrest := h.perm p hp
    rw [List.singleton_append] at hrest
    cases hpx : p x with
    | false =>
      rw [List.filter_cons_of_neg (by simp [hpx]), List.filter_cons_of_neg (by simp [hpx])]
      exact hrest
    | true =>
      rw [List.filter_cons_of_pos hpx, List.filter_cons_of_pos hpx]
      exact hrest.cons x
  · obtain ⟨ho, hfirst, hrest⟩ : P (time, o) ∧ P x ∧ ∀ y ∈ before, P y := by
      simpa only [List.singleton_append, List.forall_mem_cons] using hall
    refine List.forall_mem_cons.2 ⟨hfirst, h.forall_mem P hP ?_⟩
    exact List.forall_mem_cons.2 ⟨ho, hrest⟩
  · have := h.length_le
    simp only [List.length_cons, List.length_nil] at this ⊢
    omega

/-- **An item that is put in its place is added.** -/
theorem adds_insert (ht : now ≤ time) :
    Adds now [(time, o)] agenda (World.insert time o agenda) := by
  induction agenda with
  | nil => exact adds_front ht nofun
  | cons x rest ih =>
    obtain ⟨t, first⟩ := x
    by_cases hb : World.comesBefore time o t first = true
    · rw [World.insert, if_pos hb]
      have hfirst := World.precedes_of_comesBefore hb
      exact adds_front ht fun h =>
        List.forall_mem_cons.2 ⟨hfirst, fun y hy => hfirst.trans (h.head y hy)⟩
    · rw [World.insert, if_neg hb]
      split
      · next both hjoin =>
        obtain ⟨rfl, hj⟩ := Option.ite_none_right_eq_some.1 hjoin
        obtain ⟨ops, more, rfl, rfl, rfl⟩ := World.join?_eq_some_iff.1 hj
        exact adds_join time ops more
      · exact ih.skip (World.precedes_of_not_comesBefore hb)

/-! ## What an effect plans -/

/-- What the cluster does about the trigger of a run, sooner or later. -/
def Cluster.reply (cluster : Cluster) (id : Nat) : Fleet.Input :=
  .event id (match cluster.failure with
    | none => .acknowledged
    | some e => .refused e)

/-- What the broker does about the subscription of a run, sooner or later. -/
def Broker.reply (broker : Broker) (id : Nat) : Fleet.Input :=
  match broker.attachment with
  | .granted => .attach id
  | .astray => .event id .attached
  | .refused e => .event id (.attachFailed e)

/-- The bursts of a script that is followed from now on. -/
def Cluster.frames (cluster : Cluster) (request : ActionRequest) (now : Nat) : List Item :=
  (bursts (cluster.script request)).map fun (time, ops) => (now + time, .input (.outside ops))

/-- An answer to come, if there will be one. -/
def answerItem (now : Nat) (delay : Option Nat) (input : Fleet.Input) : List Item :=
  (delay.map fun delay => (now + delay, Occurrence.input input)).toList

namespace World

/-- `w.Plans items waiting w'`: nothing has changed, but these items are planned, and these
responders wait for a subscriber. -/
structure Plans (w : World) (items : List Item) (waiting : List Responder) (w' : World) : Prop where
  eq : w' = { w with
    agenda := w'.agenda, requests := w'.requests, responders := w.responders ++ waiting }
  adds : Adds w.now items w.agenda w'.agenda

variable {w w' : World} {items more : List Item}

theorem Plans.refl (w : World) : w.Plans [] [] w :=
  ⟨by simp, .refl ..⟩

theorem Plans.trans {w'' : World} {waiting others : List Responder} (h : w.Plans items waiting w')
    (h' : w'.Plans more others w'') : w.Plans (items ++ more) (waiting ++ others) w'' := by
  have hnow : w'.now = w.now := by rw [h.eq]
  refine ⟨?_, h.adds.trans (hnow ▸ h'.adds)⟩
  rw [h'.eq, h.eq]
  simp

theorem plans_after (w : World) (delay : Nat) {o : Occurrence} (ho : o.isDeadline = false) :
    w.Plans [(w.now + delay, o)] [] (w.after delay o) := by
  unfold after schedule
  split
  · next hd =>
    subst hd
    exact ⟨by simp, adds_now ho⟩
  · exact ⟨by simp, adds_insert (Nat.le_add_right ..)⟩

theorem plans_answer (w : World) (delay : Option Nat) (input : Fleet.Input)
    (hi : (Occurrence.input input).isDeadline = false) :
    w.Plans (answerItem w.now delay input) [] (w.answer delay input) := by
  cases delay with
  | none => exact .refl w
  | some delay => exact plans_after w delay hi

theorem plans_follow (w : World) (script : List (Nat × List Outside)) :
    w.Plans (script.map fun (time, ops) => (w.now + time, .input (.outside ops))) []
      (w.follow script) := by
  induction script generalizing w with
  | nil => exact .refl w
  | cons burst rest ih =>
    obtain ⟨time, ops⟩ := burst
    have hfirst := plans_after w time (o := .input (.outside ops)) rfl
    have hnow : (w.after time (.input (.outside ops))).now = w.now := by rw [hfirst.eq]
    have hrest := ih (w.after time (.input (.outside ops)))
    rw [hnow] at hrest
    exact hfirst.trans hrest

/-- **What a trigger plans.** -/
theorem plans_notify (w : World) (id : Nat) (request : ActionRequest) :
    w.Plans (answerItem w.now w.cluster.delay (w.cluster.reply id) ++
        w.cluster.frames request w.now)
      ((w.cluster.response request).map (Responder.mk (channelOf request) · w.now)).toList
      (w.notify id request) := by
  let asked : World := { w with
    requests := w.requests ++ [request]
    responders := w.responders ++
      ((w.cluster.response request).map (Responder.mk (channelOf request) · w.now)).toList }
  have hasked : w.Plans [] ((w.cluster.response request).map
      (Responder.mk (channelOf request) · w.now)).toList asked :=
    ⟨rfl, .refl ..⟩
  have hanswer := asked.plans_answer w.cluster.delay (w.cluster.reply id) (by
    unfold Cluster.reply
    cases w.cluster.failure <;> rfl)
  have hscript := (asked.answer w.cluster.delay (w.cluster.reply id)).plans_follow
    (bursts (w.cluster.script request))
  have hnow : (asked.answer w.cluster.delay (w.cluster.reply id)).now = w.now := by rw [hanswer.eq]
  have hcluster : (asked.answer w.cluster.delay (w.cluster.reply id)).cluster = w.cluster := by
    rw [hanswer.eq]
  have hnotify : w.notify id request = (asked.answer w.cluster.delay (w.cluster.reply id)).follow
      (bursts ((asked.answer w.cluster.delay (w.cluster.reply id)).cluster.script request)) :=
    rfl
  rw [hnow] at hscript
  rw [hnotify, hcluster]
  have hall := (hasked.trans hanswer).trans hscript
  simp only [List.nil_append, List.append_nil] at hall
  exact hall

/-- What a subscription that is asked for plans. -/
theorem plans_subscribe (w : World) (id : Nat) :
    w.Plans (answerItem w.now w.broker.delay (w.broker.reply id)) []
      (w.serve (id, .subscribe)) := by
  refine w.plans_answer w.broker.delay _ ?_
  unfold Broker.reply
  cases w.broker.attachment <;> rfl

end World

/-- There are not more bursts than operations, and each is made of operations of its time. -/
theorem bursts_spec (script : List (Nat × Outside)) :
    (bursts script).length ≤ script.length ∧
      ∀ burst ∈ bursts script, ∀ op ∈ burst.2, (burst.1, op) ∈ script := by
  induction script with
  | nil => exact ⟨Nat.le_refl 0, nofun⟩
  | cons first rest ih =>
    obtain ⟨time, op⟩ := first
    obtain ⟨hlength, hmem⟩ := ih
    rw [bursts]
    cases hrest : bursts rest with
    | nil => exact ⟨by simp, by simp⟩
    | cons burst more =>
      obtain ⟨later, ops⟩ := burst
      rw [hrest] at hlength hmem
      obtain ⟨hburst, hmore⟩ := List.forall_mem_cons.1 hmem
      have hold : ∀ burst ∈ more, ∀ op' ∈ burst.2, (burst.1, op') ∈ (time, op) :: rest :=
        fun burst hmem op' hop => .tail _ (hmore burst hmem op' hop)
      by_cases he : later = time
      · subst he
        simp only [if_true]
        refine ⟨Nat.le_succ_of_le hlength, List.forall_mem_cons.2 ⟨?_, hold⟩⟩
        exact List.forall_mem_cons.2 ⟨List.mem_cons_self, fun op' hop => .tail _ (hburst op' hop)⟩
      · simp only [if_neg he]
        refine ⟨Nat.succ_le_succ hlength, List.forall_mem_cons.2 ⟨by simp, ?_⟩⟩
        exact List.forall_mem_cons.2 ⟨fun op' hop => .tail _ (hburst op' hop), hold⟩

end Custody.Rehearsal
