import Custody.Proofs.Rehearsal.Interplay
/-!
# Several things in a row

Courses of a ceremony and its cluster that a rehearsal takes at once: the ceremony reads all that
there is (`Interplay.Good.reaches_settle`), others do many things, the publisher publishes the rest
of its script, and time goes on for a while.
-/

namespace Custody

open Ceremony

namespace Rehearsal

namespace Interplay

variable {T : Terms} {s t : Interplay}

/-- **A ceremony may read all that there is at once.** -/
theorem Good.reaches_settle (hT : T.Fit) (h : s.Good T) :
    Relation.ReflTransGen (Next T) s { s with
      hub := (Fleet.settleRun s.hub s.run).1, run := (Fleet.settleRun s.hub s.run).2 } := by
  have hsound := h.sane.counted.sound
  by_cases hp : s.run.phase = .waiting
  · obtain ⟨n, hn⟩ := h.sane.counted.bound.exists_looks hsound
    rw [hn]
    clear hn
    induction n generalizing s with
    | zero => exact .refl
    | succ n ih =>
      rw [Function.iterate_succ_apply]
      obtain ⟨aired, hf, -⟩ := h.of_waiting hp
      by_cases hkept : s.run.kept s.hub = []
      · rw [Run.lookOnce, hf.look_of_kept_eq_nil hsound hkept]
        exact ih h hsound hp
      · have hmove : s.move? T .look =
            some { s with hub := (s.run.look s.hub).1, run := (s.run.look s.hub).2 } := by
          simp only [move?, hp, if_neg hkept]
        have hnext := h.next hT (.move hmove)
        refine .head (.move hmove) ?_
        rcases (hf.look hsound).waits_or_over with hwaits | hover
        · exact ih hnext hnext.sane.counted.sound hwaits
        · -- one who is over does not look any more
          have hstay : ∀ m, Run.lookOnce^[m] (s.run.look s.hub) = s.run.look s.hub :=
            Function.iterate_fixed (Run.look_of_not_waiting _ fun hw => by
              rw [hw.1] at hover
              cases hover)
          rw [Run.lookOnce, hstay]
  · rw [Run.settleRun_of_phase_ne hp]

/-- Others may do many things that have nothing to do with the ceremony. -/
theorem reaches_outsides {ops : List Outside} (hops : ∀ op ∈ ops, op.IsElsewhere s.run.channel) :
    Relation.ReflTransGen (Next T) s
      { s with hub := (s.hub.run (ops.map Outside.operation)).2 } := by
  induction ops generalizing s with
  | nil => exact .refl
  | cons op rest ih =>
    obtain ⟨hop, hrest⟩ := List.forall_mem_cons.1 hops
    exact .head (.others (Run.ignores_of_isElsewhere hop s.hub))
      (ih (s := { s with hub := (s.hub.apply op.operation).2 }) hrest)

/-- The trigger of a ceremony that asks for nothing else reaches the cluster at its start. -/
theorem move?_notify_of_start (hT : T.Fit) (hnow : s.now = T.start) (hasked : s.asked = [.notify]) :
    s.move? T .notify = some { s with
      asked := []
      answering := true
      requests := s.requests ++ [T.request]
      publisher := T.script.map fun _ => T.responder.publisher } := by
  simp only [move?, publisher_eq hT hnow, hasked, List.mem_singleton, if_true,
    List.erase_cons_head]

/-- A ceremony that subscribes first sends its trigger as soon as its subscription is open. -/
theorem reaches_triggered (hT : T.Fit) (hs : s.hub.Sound) (hnow : s.now = T.start)
    (hp : s.run.phase = .subscribing) (hasked : s.asked = [.subscribe]) :
    Relation.ReflTransGen (Next T) s { s with
      hub := (s.run.meet s.hub (.attach s.run.id)).2.1
      run := (s.run.meet s.hub (.attach s.run.id)).2.2
      asked := []
      answering := true
      requests := s.requests ++ [T.request]
      publisher := T.script.map fun _ => T.responder.publisher } := by
  have heffects := (Run.meet_attach_follows hs false hp).1
  rw [if_neg Bool.false_ne_true] at heffects
  have hattach : s.move? T .attach = some { s with
      hub := (s.run.meet s.hub (.attach s.run.id)).2.1
      run := (s.run.meet s.hub (.attach s.run.id)).2.2
      asked := [.notify] } := by
    simp [move?, tell, hasked, heffects]
  exact .head (.move hattach) (.single (.move (move?_notify_of_start hT hnow rfl)))

/-- A publisher that has found somebody publishes the rest of its script. -/
theorem reaches_published (rest : List String)
    (hp : s.publisher = some ⟨T.responder, .publishing rest⟩) :
    Relation.ReflTransGen (Next T) s { s with
      hub := (s.hub.run ((rest.map (Outside.publish T.channel)).map Outside.operation)).2
      publisher := some ⟨T.responder, .finished⟩ } := by
  induction rest generalizing s with
  | nil =>
    have hmove : s.move? T .publish =
        some { s with publisher := some ⟨T.responder, .finished⟩ } := by
      simp [move?, hp, Publisher.turn?, Terms.responder, Hub.after]
    exact .single (.move hmove)
  | cons payload rest ih =>
    have hmove : s.move? T .publish = some { s with
        hub := (s.hub.apply (.publish T.channel payload)).2
        publisher := some ⟨T.responder, .publishing rest⟩ } := by
      simp [move?, hp, Publisher.turn?, Terms.responder, Hub.after, Outside.operation]
    exact .head (.move hmove) (ih rfl)

/-- A publisher that finds somebody at its first look publishes its whole script. -/
theorem reaches_found (hp : s.publisher = some T.responder.publisher) (hnow : s.now = T.start)
    (hcount : s.hub.subscriberCount T.channel ≠ 0) : Relation.ReflTransGen (Next T) s { s with
      hub := (s.hub.run ((T.payloads.map (Outside.publish T.channel)).map Outside.operation)).2
      publisher := some ⟨T.responder, .finished⟩ } := by
  have hlooks : T.responder.publisher.turn? s.now s.hub =
      some (none, ⟨T.responder, .publishing T.payloads⟩) := by
    have hbegun : T.responder.start ≤ s.now := Nat.le_of_eq hnow.symm
    show (if T.responder.start ≤ s.now then
      if s.hub.subscriberCount T.channel = 0 then _ else _ else _) = _
    rw [if_pos hbegun, if_neg hcount]
    rfl
  have hfound : s.move? T .publish =
      some { s with publisher := some ⟨T.responder, .publishing T.payloads⟩ } := by
    simp [move?, hp, hlooks, Hub.after]
  exact .head (.move hfound) (reaches_published T.payloads
    (s := { s with publisher := some ⟨T.responder, .publishing T.payloads⟩ }) rfl)

/-- Time goes on as long as nothing is to be done. -/
theorem reaches_later {n : Nat}
    (h : ∀ k < n, ∀ m, ({ s with now := s.now + k } : Interplay).move? T m = none) :
    Relation.ReflTransGen (Next T) s { s with now := s.now + n } := by
  induction n with
  | zero => exact .refl
  | succ n ih =>
    exact .tail (ih fun k hk => h k (Nat.lt_succ_of_lt hk)) (.tick (h n (Nat.lt_succ_self n)))

/-- A ceremony that waits, and a cluster that has nothing left to publish, have nothing to do before
the deadline. -/
theorem move?_eq_none (hp : s.run.phase = .waiting) (hkept : s.run.kept s.hub = [])
    (hasked : s.asked = []) (hanswering : s.answering = false)
    (hover : ∀ p ∈ s.publisher, p.errand = .finished) (hlt : s.now < T.deadline) (m : Move) :
    s.move? T m = none := by
  cases m with
  | notify => simp [move?, hasked]
  | acknowledge => simp [move?, hanswering]
  | attach => simp [move?, hasked]
  | look => simp [move?, hp, hkept]
  | deadline => simp [move?, Nat.not_le.2 hlt]
  | publish =>
    cases hpublisher : s.publisher with
    | none => simp [move?, hpublisher]
    | some p => simp [move?, hpublisher, Publisher.turn?, hover p (by rw [hpublisher]; rfl)]

end Interplay

end Rehearsal

end Custody
