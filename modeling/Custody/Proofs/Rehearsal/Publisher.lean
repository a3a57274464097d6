import Custody.Rehearsal.World
import Custody.Proofs.Hub.Receiver
/-!
# Publishers

What a responder does step by step: it looks for a subscriber, sleeps, looks again, gives up when
its patience is over, or publishes its payloads one after the other once somebody listens
(`Publisher.turn?`). Others do what they like with the hub meanwhile, and time goes on when the
publisher has nothing to do (`Watch.Next`).

A publisher that nobody has listened to in time does nothing to the hub, then or later
(`Watch.Unheard.quiet`). As long as it waits, it looks next at the time at which a rehearsal lets it
publish (`Watch.Unheard.due?_eq`).
-/

namespace Custody

/-- The hub after something that others do, if they do anything. -/
def Hub.after (hub : Hub) (op : Option Outside) : Hub :=
  op.elim hub fun op => (hub.apply op.operation).2

namespace Rehearsal

namespace Responder

/-- The time between two looks. -/
def period (r : Responder) : Nat :=
  max 1 r.response.period

/-- The last moment at which the cluster looks, if its patience has an end. -/
def limit? (r : Responder) : Option Nat :=
  r.response.patience.map (r.start + ·)

/-- A rehearsal takes the cluster to have given up after that moment. -/
theorem hasGivenUp_eq (r : Responder) (time : Nat) :
    World.Responder.hasGivenUp r time = r.limit?.any (· < time) := by
  unfold World.Responder.hasGivenUp limit?
  cases r.response.patience <;> rfl

end Responder

/-! ## What a publisher does -/

/-- What a publisher is about. -/
inductive Errand
  /-- It looks for a subscriber at this time. -/
  | looking (next : Nat)
  /-- It has found a subscriber and still has to publish these payloads. -/
  | publishing (rest : List String)
  | finished
  deriving DecidableEq

/-- A responder at work. -/
structure Publisher where
  responder : Responder
  errand : Errand

/-- A publisher begins with a look. -/
def Responder.publisher (r : Responder) : Publisher :=
  ⟨r, .looking r.start⟩

namespace Publisher

/-- What a publisher does to the hub and what it is about then, if it has anything to do now. It
looks once more at the very moment at which its patience is over. -/
def turn? (p : Publisher) (now : Nat) (hub : Hub) : Option (Option Outside × Publisher) :=
  match p.errand with
  | .looking next =>
    if next ≤ now then
      if hub.subscriberCount p.responder.channel = 0 then
        some (none, { p with errand := .looking (now + p.responder.period) })
      else
        some (none, { p with errand := .publishing p.responder.response.payloads })
    else if p.responder.limit?.any (· ≤ now) then some (none, { p with errand := .finished })
    else none
  | .publishing (payload :: rest) =>
    some (some (.publish p.responder.channel payload), { p with errand := .publishing rest })
  | .publishing [] =>
    some (if p.responder.response.closes then some (.close p.responder.channel) else none,
      { p with errand := .finished })
  | .finished => none

/-- `p.Looks now hub op next`: what a publisher can do that looks for a subscriber. -/
inductive Looks (p : Publisher) (now : Nat) (hub : Hub) (time : Nat) : Publisher → Prop
  | nobody (hle : time ≤ now) (hcount : hub.subscriberCount p.responder.channel = 0) :
    Looks p now hub time { p with errand := .looking (now + p.responder.period) }
  | somebody (hle : time ≤ now) (hcount : hub.subscriberCount p.responder.channel ≠ 0) :
    Looks p now hub time { p with errand := .publishing p.responder.response.payloads }
  | givesUp (hlt : now < time) (hout : p.responder.limit?.any (· ≤ now) = true) :
    Looks p now hub time { p with errand := .finished }

variable {p next : Publisher} {now time : Nat} {hub : Hub} {op : Option Outside}

/-- **A look does nothing to the hub.** -/
theorem looks_of_turn? (he : p.errand = .looking time) (h : p.turn? now hub = some (op, next)) :
    op = none ∧ p.Looks now hub time next := by
  simp only [turn?, he] at h
  split at h
  · next hle =>
    split at h
    · next hcount =>
      cases h
      exact ⟨rfl, .nobody hle hcount⟩
    · next hcount =>
      cases h
      exact ⟨rfl, .somebody hle hcount⟩
  · next hlt =>
    split at h
    · next hout =>
      cases h
      exact ⟨rfl, .givesUp (Nat.lt_of_not_le hlt) hout⟩
    · cases h

/-- A publisher that looks has nothing to do until its next look, or the end of its patience. -/
theorem turn?_eq_none_iff (he : p.errand = .looking time) :
    p.turn? now hub = none ↔ now < time ∧ p.responder.limit?.any (· ≤ now) = false := by
  simp only [turn?, he]
  split
  · next hle => split <;> simp [Nat.not_lt.2 hle]
  · next hlt => split <;> simp_all

/-- How much a publisher has still to do before time goes on, at the most. -/
def work (p : Publisher) (now : Nat) : Nat :=
  match p.errand with
  | .looking next => 2 * p.responder.response.payloads.length + if next ≤ now then 4 else 3
  | .publishing rest => 2 * rest.length + 2
  | .finished => 0

/-- **A publisher has less to do after each turn**, also when what it does gives others something to
do. -/
theorem work_lt (h : p.turn? now hub = some (op, next)) :
    next.work now + (if op.isSome then 1 else 0) < p.work now := by
  obtain ⟨r, errand⟩ := p
  cases errand with
  | looking time =>
    have hpos : 0 < r.period := Nat.le_max_left ..
    obtain ⟨rfl, hlooks⟩ := looks_of_turn? rfl h
    cases hlooks with
    | nobody hle =>
      have hlater : ¬ now + r.period ≤ now := by omega
      simp [work, hle, hlater]
    | somebody hle => simp [work, hle]
    | givesUp hlt => simp [work, Nat.not_le.2 hlt]
  | publishing rest =>
    cases rest with
    | nil =>
      obtain ⟨rfl, rfl⟩ := Prod.mk.inj (Option.some.inj h)
      simp only [work]
      split <;> simp
    | cons payload rest =>
      obtain ⟨rfl, rfl⟩ := Prod.mk.inj (Option.some.inj h)
      simp only [work, Option.isSome_some, if_true, List.length_cons]
      omega
  | finished => cases h

end Publisher

/-! ## A publisher that nobody listens to -/

/-- A hub and a publisher, at a moment. -/
structure Watch where
  now : Nat
  hub : Hub
  publisher : Publisher

namespace Watch

/-- What can happen next: others do anything to the hub, it is the publisher's turn, or time goes
on, which it does not while the publisher has something to do. -/
inductive Next (w : Watch) : Watch → Prop
  | others (op : Hub.Operation) : Next w { w with hub := (w.hub.apply op).2 }
  | publisher {op : Option Outside} {p : Publisher}
    (h : w.publisher.turn? w.now w.hub = some (op, p)) :
    Next w { w with hub := w.hub.after op, publisher := p }
  | tick (h : w.publisher.turn? w.now w.hub = none) : Next w { w with now := w.now + 1 }

/-- `Unheard r limit hub w`: this can have become of a responder that began to look over a hub, and
nobody has listened on its channel up to the limit. -/
inductive Unheard (r : Responder) (limit : Nat) (hub : Hub) : Watch → Prop
  | start (h : r.start ≤ limit → hub.subscriberCount r.channel = 0) :
    Unheard r limit hub ⟨r.start, hub, r.publisher⟩
  | next {w w' : Watch} (hw : Unheard r limit hub w) (hn : w.Next w')
    (h : w'.now ≤ limit → w'.hub.subscriberCount r.channel = 0) : Unheard r limit hub w'

/-- The publisher of a responder still looks, or has given up at the limit. Its looks are a whole
number of periods after its start, and none is left out. -/
inductive Waits (r : Responder) (limit now : Nat) : Publisher → Prop
  | looks {time k : Nat} (hle : now ≤ time) (hlt : time ≤ now + r.period)
    (htime : time = r.start + k * r.period) (hstart : r.start ≤ now) (hnow : now ≤ limit) :
    Waits r limit now ⟨r, .looking time⟩
  | gaveUp (hnow : limit ≤ now) : Waits r limit now ⟨r, .finished⟩

variable {r : Responder} {limit : Nat} {hub : Hub} {w : Watch}

/-- Nobody has listened so far, if the limit has not been passed. -/
theorem Unheard.count_eq (h : Unheard r limit hub w) (hle : w.now ≤ limit) :
    w.hub.subscriberCount r.channel = 0 := by
  cases h with
  | start h => exact h hle
  | next _ _ h => exact h hle

/-- **A publisher that nobody listens to waits** up to its limit, and then gives up. -/
theorem Unheard.waits (h : Unheard r limit hub w) (hlimit : r.limit? = some limit) :
    Waits r limit w.now w.publisher := by
  induction h with
  | start _ =>
    refine .looks (k := 0) (Nat.le_refl _) (Nat.le_add_right ..) (by simp) (Nat.le_refl _) ?_
    obtain ⟨patience, -, rfl⟩ := Option.map_eq_some_iff.1 hlimit
    exact Nat.le_add_right ..
  | @next w _ hw hn _ ih =>
    cases hn with
    | others op => exact ih
    | @publisher op p hturn =>
      generalize hp : w.publisher = publisher at hturn ih
      cases ih with
      | @looks time k hle hlt htime hstart hnow =>
        obtain ⟨-, hlooks⟩ := Publisher.looks_of_turn? rfl hturn
        cases hlooks with
        | nobody hle' hcount =>
          obtain rfl : w.now = time := Nat.le_antisymm hle hle'
          exact .looks (Nat.le_add_right ..) (Nat.le_refl _)
            (by rw [htime, Nat.succ_mul, Nat.add_assoc]) hstart hnow
        | somebody hle' hcount => exact absurd (hw.count_eq hnow) hcount
        | givesUp hlt' hout =>
          refine .gaveUp ?_
          simpa [hlimit] using hout
      | gaveUp hout => cases hturn
    | tick hturn =>
      generalize hp : w.publisher = publisher at hturn ih
      cases ih with
      | looks hle hlt htime hstart hnow =>
        obtain ⟨hlt', hin⟩ := (Publisher.turn?_eq_none_iff rfl).1 hturn
        have hin : w.now < limit := by simpa [hlimit] using hin
        exact .looks hlt' (Nat.le_trans hlt (by simp only; omega)) htime
          (Nat.le_succ_of_le hstart) hin
      | gaveUp hnow => exact .gaveUp (Nat.le_succ_of_le hnow)

/-- **A publisher that nobody has listened to in time does nothing to the hub**, at no moment, and
is over when its limit has passed. -/
theorem Unheard.quiet (h : Unheard r limit hub w) (hlimit : r.limit? = some limit) :
    (∀ op p, w.publisher.turn? w.now w.hub = some (op, p) → op = none) ∧
      (limit < w.now → w.publisher.errand = .finished) := by
  have hwaits := h.waits hlimit
  generalize w.publisher = publisher at hwaits ⊢
  cases hwaits with
  | looks hle hlt htime hstart hnow =>
    exact ⟨fun op p hturn => (Publisher.looks_of_turn? rfl hturn).1,
      fun hlt => absurd hnow (Nat.not_le.2 hlt)⟩
  | gaveUp => exact ⟨nofun, fun _ => rfl⟩

/-- **When a publisher looks next** is the time at which a rehearsal lets its responder publish, if
somebody listens from now on. Only a look that was made at this very moment is taken to be still to
come. -/
theorem Unheard.due?_eq (h : Unheard r limit hub w) (hlimit : r.limit? = some limit) {time : Nat}
    (he : w.publisher.errand = .looking time) {world : World} (hnow : world.now = w.now)
    (hcount : world.fleet.hub.subscriberCount r.channel ≠ 0) :
    world.due? r = some (if time = w.now + r.period then w.now else time) := by
  have hwaits := h.waits hlimit
  generalize w.publisher = publisher at hwaits he
  cases hwaits with
  | gaveUp => cases he
  | @looks time' k hle hlt htime hstart =>
    obtain rfl := Errand.looking.inj he
    have hpos : 0 < r.period := Nat.le_max_left ..
    have hperiod : max 1 r.response.period = r.period := rfl
    simp only [World.due?, if_neg hcount, hnow, hperiod]
    -- how many looks there are from the start on, and before `time`
    have hk : time' - r.start = k * r.period := by omega
    by_cases hlast : time' = w.now + r.period
    · obtain ⟨k, rfl⟩ : ∃ j, k = j + 1 := Nat.exists_eq_succ_of_ne_zero (by rintro rfl; omega)
      rw [Nat.succ_mul] at hk
      have hdiv : (w.now - r.start + r.period - 1) / r.period = k :=
        Nat.div_eq_of_lt_le (by omega) (by rw [Nat.succ_mul]; omega)
      rw [if_pos hlast, hdiv]
      exact congrArg some (by omega)
    · have hdiv : (w.now - r.start + r.period - 1) / r.period = k :=
        Nat.div_eq_of_lt_le (by omega) (by rw [Nat.succ_mul]; omega)
      rw [if_neg hlast, hdiv]
      exact congrArg some htime.symm

end Watch

end Rehearsal

end Custody
