import Custody.Proofs.Ceremony.Order
import Custody.Subscription
/-!
# The subscriptions of a ceremony

A broker opens subscriptions, and a ceremony holds the one that has been opened for it until it
lets go of it: one who has waited to the end closes it, and on every other way out it is dropped. A
closed subscription is dropped, too, so that the release is reached twice there.

`Tenure` is a ceremony's course together with the subscriptions that have been opened for it.
While the ceremony goes on it holds what has been opened, unreleased, and once it is over it holds
nothing and everything that was opened has been released once (`Ceremony.lawful_tenure`).
-/

namespace Custody

open Ceremony

/-! ## Letting go -/

namespace Subscription

/-- Drops a subscription. -/
def drop (sub : Subscription) : Subscription :=
  sub.release

/-- Closes a subscription, which is dropped after that. -/
def close (sub : Subscription) : Subscription :=
  sub.release.drop

/-- The subscription has been opened and has not been released. -/
structure IsHeld (sub : Subscription) : Prop where
  isOpen : sub.isOpen = true
  releases : sub.releases = 0

/-- The stream of the subscription has been dropped, and it has been released once. -/
structure IsReleased (sub : Subscription) : Prop where
  isOpen : sub.isOpen = false
  messages : sub.messages = []
  ends : sub.ends = true
  releases : sub.releases = 1

theorem isHeld_ofMessages (channel : String) (messages : List String) (ends : Bool) :
    (ofMessages channel messages ends).IsHeld :=
  ⟨rfl, rfl⟩

theorem close_eq_drop (sub : Subscription) : sub.close = sub.drop :=
  sub.release_release

theorem IsHeld.drop {sub : Subscription} (h : sub.IsHeld) : sub.drop.IsReleased := by
  constructor <;> simp [Subscription.drop, release, h.isOpen, h.releases]

end Subscription

/-! ## Attached and detached -/

namespace Ceremony

/-- **What a step does to the subscription**: it takes one that has been opened, or lets go of the
one that is open, and is over, or leaves it as it is. -/
theorem step_attachment (c : Ceremony) (phase : Phase) (event : Event) :
    (event = .attached ∧ phase.awaitsAttachment = true) ∧
        (c.step phase event).1.isAttached = true ∧ .release ∉ (c.step phase event).2 ∨
    ¬ (event = .attached ∧ phase.awaitsAttachment = true) ∧ phase.isAttached = true ∧
        (c.step phase event).1.outcome?.isSome = true ∧ .release ∈ (c.step phase event).2 ∨
    ¬ (event = .attached ∧ phase.awaitsAttachment = true) ∧
        (c.step phase event).1.isAttached = phase.isAttached ∧
        .release ∉ (c.step phase event).2 := by
  rcases c.step_eq phase event with hs | hm
  · refine .inr (.inr ⟨?_, by rw [hs], by rw [hs]; exact List.not_mem_nil⟩)
    rintro ⟨rfl, hp⟩
    cases phase with
    | subscribing => simp [step] at hs
    | attaching => simp [step] at hs
    | opening => simp [step] at hs
    | _ => cases hp
  · generalize hnext : (c.step phase event).1 = next at hm
    generalize heffects : (c.step phase event).2 = effects at hm
    cases hm with
    | attachFailed h e =>
      refine .inr (.inr ⟨by simp, ?_, by simp⟩)
      cases phase <;> first | rfl | cases h
    | refused early e =>
      cases early with
      | true => exact .inr (.inl ⟨by simp, rfl, rfl, by simp [releaseIf]⟩)
      | false => exact .inr (.inr ⟨by simp, rfl, by simp [releaseIf]⟩)
    | triggerElapsed early =>
      cases early with
      | true => exact .inr (.inl ⟨by simp, rfl, rfl, by simp [releaseIf]⟩)
      | false => exact .inr (.inr ⟨by simp, rfl, by simp [releaseIf]⟩)
    | cancelled h =>
      cases ha : phase.isAttached with
      | true => exact .inr (.inl ⟨by simp, rfl, rfl, by simp [releaseIf]⟩)
      | false => exact .inr (.inr ⟨by simp, rfl, by simp [releaseIf]⟩)
    | attachedEarly => exact .inl ⟨⟨rfl, rfl⟩, rfl, by simp⟩
    | attachedLate => exact .inl ⟨⟨rfl, rfl⟩, rfl, by simp⟩
    | attachedAlone => exact .inl ⟨⟨rfl, rfl⟩, rfl, by simp⟩
    | result h => exact .inr (.inl ⟨by simp, rfl, rfl, by simp⟩)
    | closed => exact .inr (.inl ⟨by simp, rfl, rfl, by simp⟩)
    | waitElapsed => exact .inr (.inl ⟨by simp, rfl, rfl, by simp⟩)
    | subscribingElapsed => exact .inr (.inr ⟨by simp, rfl, by simp⟩)
    | attachingElapsed => exact .inr (.inr ⟨by simp, rfl, by simp⟩)
    | acknowledgedEarly => exact .inr (.inr ⟨by simp, rfl, by simp⟩)
    | acknowledgedLate => exact .inr (.inr ⟨by simp, rfl, by simp⟩)

theorem Phase.outcome?_of_isAttached {phase : Phase} (h : phase.isAttached = true) :
    phase.outcome? = none := by
  cases phase <;> first | rfl | cases h

/-- Nothing is attached at the end. -/
theorem Phase.isAttached_of_outcome? {phase : Phase} (h : phase.outcome?.isSome = true) :
    phase.isAttached = false := by
  cases phase <;> first | rfl | cases h

theorem Phase.isAttached_of_awaitsAttachment {phase : Phase} (h : phase.awaitsAttachment = true) :
    phase.isAttached = false := by
  cases phase <;> first | rfl | cases h

theorem Phase.outcome?_of_awaitsAttachment {phase : Phase} (h : phase.awaitsAttachment = true) :
    phase.outcome? = none := by
  cases phase <;> first | rfl | cases h

/-- Nothing is attached at the start. -/
theorem isAttached_start (c : Ceremony) : c.start.1.isAttached = false := by
  unfold start
  cases c.plan <;> rfl

end Ceremony

/-! ## Tenures -/

/-- A ceremony's course and the subscriptions that a broker has opened for it. -/
structure Tenure where
  phase : Phase
  /-- The subscription that the ceremony holds. -/
  held : Option Subscription
  /-- Those that it has let go of, first to last. -/
  past : List Subscription

namespace Tenure

/-- How many subscriptions are held or have been let go of. -/
def count (t : Tenure) : Nat :=
  t.past.length + t.held.toList.length

/-- How a ceremony lets go of its subscription in a phase when an event ends it. -/
def letGo : Phase → Event → Subscription → Subscription
  | .waiting, .cancelled, sub => sub.drop
  | .waiting, _, sub => sub.close
  | _, _, sub => sub.drop

theorem letGo_eq_drop (phase : Phase) (event : Event) (sub : Subscription) :
    letGo phase event sub = sub.drop := by
  unfold letGo
  split <;> first | rfl | exact sub.close_eq_drop

/-- What is known of a tenure at any time. -/
structure Lawful (t : Tenure) : Prop where
  isSome_held : t.held.isSome = t.phase.isAttached
  held : ∀ sub ∈ t.held, sub.IsHeld
  past : ∀ sub ∈ t.past, sub.IsReleased
  /-- Nothing is let go of before the end. -/
  past_eq_nil : t.phase.outcome? = none → t.past = []
  length_past : t.past.length ≤ 1

end Tenure

namespace Ceremony

/-- Takes what happens, with a broker whose subscription number `n` has `(broker n).1` in store that
nobody reads, and ends after that if `(broker n).2`. What is read is among the events. -/
def serve (c : Ceremony) (broker : Nat → List String × Bool) (t : Tenure) (event : Event) :
    Tenure :=
  let (phase, effects) := c.step t.phase event
  let held :=
    if event = .attached ∧ t.phase.awaitsAttachment = true then
      some (.ofMessages c.channel.name (broker t.count).1 (broker t.count).2)
    else t.held
  if .release ∈ effects then
    ⟨phase, none, t.past ++ held.toList.map (Tenure.letGo t.phase event)⟩
  else ⟨phase, held, t.past⟩

/-- The tenure of a ceremony after events. -/
def tenure (c : Ceremony) (broker : Nat → List String × Bool) (events : List Event) : Tenure :=
  events.foldl (c.serve broker) ⟨c.start.1, none, []⟩

/-- How many subscriptions the broker opens for a ceremony from a phase on. -/
def openings (c : Ceremony) (phase : Phase) : List Event → Nat
  | [] => 0
  | event :: rest =>
    (if event = .attached ∧ phase.awaitsAttachment = true then 1 else 0) +
      c.openings (c.step phase event).1 rest

variable {c : Ceremony} {broker : Nat → List String × Bool} {t : Tenure} {event : Event}

theorem phase_serve : (c.serve broker t event).phase = (c.step t.phase event).1 := by
  simp only [serve]
  split <;> rfl

theorem phase_foldl_serve (events : List Event) :
    (events.foldl (c.serve broker) t).phase = (c.run t.phase events).1 := by
  induction events generalizing t with
  | nil => rfl
  | cons event rest ih => rw [List.foldl_cons, ih, phase_serve, run_cons]

end Ceremony

namespace Tenure

variable (c : Ceremony) (broker : Nat → List String × Bool)

/-- A lawful tenure stays lawful, and nothing that is opened gets lost. -/
theorem Lawful.serve {t : Tenure} (h : t.Lawful) (event : Event) :
    (c.serve broker t event).Lawful ∧
      (c.serve broker t event).count =
        t.count + if event = .attached ∧ t.phase.awaitsAttachment = true then 1 else 0 := by
  obtain ⟨hisSome, hheld, hpast, hnil, hlength⟩ := h
  rcases c.step_attachment t.phase event with
    ⟨hnew, ha, hr⟩ | ⟨hnew, ha, hover, hr⟩ | ⟨hnew, ha, hr⟩
  · -- a subscription is taken, and there was none
    have hopen := Phase.outcome?_of_isAttached ha
    have hnone : t.held = none := by
      rw [← Option.isNone_iff_eq_none, ← Option.isSome_eq_false_iff, hisSome]
      exact Phase.isAttached_of_awaitsAttachment hnew.2
    have hempty := hnil (Phase.outcome?_of_awaitsAttachment hnew.2)
    simp only [Ceremony.serve, if_pos hnew, if_neg hr]
    refine ⟨⟨ha.symm, ?_, hpast, fun _ => hempty, hlength⟩, by simp [count, hnone]⟩
    rintro sub hsub
    obtain rfl := Option.some.inj hsub
    exact Subscription.isHeld_ofMessages ..
  · -- the one that is held is let go of
    obtain ⟨sub, hsub⟩ := Option.isSome_iff_exists.1 (hisSome.trans ha)
    have hempty := hnil (Phase.outcome?_of_isAttached ha)
    simp only [Ceremony.serve, if_neg hnew, if_pos hr]
    refine ⟨⟨(Phase.isAttached_of_outcome? hover).symm, by simp, ?_, ?_, ?_⟩, ?_⟩
    · rw [hempty, hsub]
      simpa [letGo_eq_drop] using (hheld sub hsub).drop
    · intro hn
      simp [hn] at hover
    · simp [hempty, hsub]
    · simp [count, hempty, hsub]
  · -- all stays as it is
    simp only [Ceremony.serve, if_neg hnew, if_neg hr]
    refine ⟨⟨hisSome.trans ha.symm, hheld, hpast, ?_, hlength⟩, rfl⟩
    intro hopen
    refine hnil ?_
    cases hphase : t.phase with
    | finished outcome => simp [hphase, step, Phase.outcome?] at hopen
    | _ => rfl

end Tenure

namespace Ceremony

variable (c : Ceremony) (broker : Nat → List String × Bool)

theorem lawful_foldl_serve {t : Tenure} (h : t.Lawful) (events : List Event) :
    (events.foldl (c.serve broker) t).Lawful ∧
      (events.foldl (c.serve broker) t).count = t.count + c.openings t.phase events := by
  induction events generalizing t with
  | nil => exact ⟨h, rfl⟩
  | cons event rest ih =>
    obtain ⟨hs, hcount⟩ := h.serve c broker event
    obtain ⟨hl, hc⟩ := ih hs
    refine ⟨hl, ?_⟩
    rw [List.foldl_cons, hc, hcount, phase_serve, openings, Nat.add_assoc]

/-- **The subscriptions of a ceremony**: at any time its tenure is lawful, and has all that the
broker has opened. -/
theorem lawful_tenure (events : List Event) :
    (c.tenure broker events).Lawful ∧
      (c.tenure broker events).count = c.openings c.start.1 events := by
  have hstart : (Tenure.mk c.start.1 none []).Lawful :=
    ⟨c.isAttached_start.symm, by simp, by simp, fun _ => rfl, Nat.zero_le 1⟩
  have h := lawful_foldl_serve c broker hstart events
  exact ⟨h.1, h.2.trans (Nat.zero_add _)⟩

end Ceremony

end Custody
