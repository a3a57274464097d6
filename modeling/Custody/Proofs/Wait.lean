import Custody.Proofs.Ceremony.Run
/-!
# What a wait comes to

A wait meets three sources of events: the payloads of its stream, the stream's end and the deadline.
A `Feed` is what one stream brings, with times. The outcome of a wait over a feed depends on very
little of it (`wait_outcome`): the first payload that carries a result and comes before the deadline
wins; without one the stream's end closes the wait, if it comes before the deadline, and else the
wait runs out of time.

* `Wait.run_filter`: payloads that carry no result can be left out.
* `Wait.run_of_first`, `Wait.run_of_noise`: the wait with and without a winner.
* `Ceremony.run_timeline`: a ceremony in its waiting phase, for which the deadline is an event among
  the others, ends as the wait does and releases its subscription once.
-/

namespace Custody

open Ceremony (Event Phase)

/-! ## Payloads -/

/-- The payload is an object that is a complete result for the purpose, and this is the result. -/
def Carries (purpose : Purpose) (payload : String) (result : CeremonyResult) : Prop :=
  ∃ envelope, Envelope.ofText? payload = some envelope ∧
    envelope.completion purpose = .complete result

theorem resultOf?_eq_some_iff {purpose : Purpose} {payload : String} {result : CeremonyResult} :
    resultOf? purpose payload = some result ↔ Carries purpose payload result := by
  unfold resultOf? Carries
  cases Envelope.ofText? payload with
  | none => simp
  | some envelope => cases h : envelope.completion purpose <;> simp [h]

/-- The payload carries no result for the purpose. -/
def Noise (purpose : Purpose) (payload : String) : Prop :=
  ∀ result, ¬ Carries purpose payload result

theorem noise_iff {purpose : Purpose} {payload : String} :
    Noise purpose payload ↔ resultOf? purpose payload = none := by
  simp only [Noise, ← resultOf?_eq_some_iff, Option.eq_none_iff_forall_ne_some, ne_eq]

/-- **A payload is noise for one of three reasons**: it is no object, an object without all members
that the purpose asks for, or one whose payload cannot be decoded. -/
theorem noise_iff_completion {purpose : Purpose} {payload : String} :
    Noise purpose payload ↔ Envelope.ofText? payload = none ∨
      ∃ envelope, Envelope.ofText? payload = some envelope ∧
        (envelope.completion purpose = .incomplete ∨
          ∃ reason, envelope.completion purpose = .corrupt reason) := by
  rw [noise_iff]
  unfold resultOf?
  cases Envelope.ofText? payload with
  | none => simp
  | some envelope => cases h : envelope.completion purpose <;> simp [h]

/-! ## Feeds -/

/-- What a stream brings: payloads with their times, which do not decrease, and perhaps its end
after them. -/
structure Feed where
  payloads : List (Nat × String)
  ending : Option Nat
  sorted : (payloads.map Prod.fst ++ ending.toList).Pairwise (· ≤ ·)

/-- The events of payloads and of an end. -/
def streamEvents (payloads : List (Nat × String)) (ending : Option Nat) :
    List (Nat × StreamEvent) :=
  payloads.map (fun q => (q.1, .message q.2)) ++ ending.toList.map (·, .ended)

@[simp] theorem streamEvents_cons (q : Nat × String) (payloads : List (Nat × String))
    (ending : Option Nat) :
    streamEvents (q :: payloads) ending = (q.1, .message q.2) :: streamEvents payloads ending :=
  rfl

@[simp] theorem map_fst_streamEvents (payloads : List (Nat × String)) (ending : Option Nat) :
    (streamEvents payloads ending).map Prod.fst = payloads.map Prod.fst ++ ending.toList := by
  simp [streamEvents, Function.comp_def]

namespace Feed

/-- The events of a feed. -/
def events (feed : Feed) : List (Nat × StreamEvent) :=
  streamEvents feed.payloads feed.ending

/-- Nothing happens at the very time of the deadline. -/
def Avoids (feed : Feed) (deadline : Nat) : Prop :=
  ∀ time ∈ feed.payloads.map Prod.fst ++ feed.ending.toList, time ≠ deadline

instance (feed : Feed) (deadline : Nat) : Decidable (feed.Avoids deadline) :=
  inferInstanceAs (Decidable (∀ time ∈ _, _))

/-- The first payload with a result for the purpose comes at this time, before the deadline, and
carries this result. -/
def First (feed : Feed) (purpose : Purpose) (deadline time : Nat) (result : CeremonyResult) :
    Prop :=
  ∃ before payload after, feed.payloads = before ++ (time, payload) :: after ∧
    (∀ q ∈ before, Noise purpose q.2) ∧ Carries purpose payload result ∧ time < deadline

/-- The payloads that carry results for the purpose. -/
def signal (feed : Feed) (purpose : Purpose) : List (Nat × String) :=
  feed.payloads.filter fun q => (resultOf? purpose q.2).isSome

/-- Where no payload is the first with a result, all payloads before the deadline are noise. -/
theorem noise_of_no_first {feed : Feed} {purpose : Purpose} {deadline : Nat}
    (hnone : ∀ time result, ¬ feed.First purpose deadline time result) :
    ∀ q ∈ feed.payloads, q.1 < deadline → resultOf? purpose q.2 = none := by
  intro q hq ht
  cases hf : feed.payloads.find? fun q => (resultOf? purpose q.2).isSome with
  | none => simpa using List.find?_eq_none.1 hf q hq
  | some winner =>
    obtain ⟨time, payload⟩ := winner
    obtain ⟨hw, before, after, hp, hb⟩ := List.find?_eq_some_iff_append.1 hf
    obtain ⟨result, hr⟩ := Option.isSome_iff_exists.1 hw
    have hbefore : ∀ q ∈ before, resultOf? purpose q.2 = none := fun q hq => by
      simpa using hb q hq
    -- the first payload with a result comes too late, and so does all after it
    have hlate : ¬ time < deadline := fun ht => hnone time result
      ⟨before, payload, after, hp, fun q hq => noise_iff.2 (hbefore q hq),
        resultOf?_eq_some_iff.1 hr, ht⟩
    have hs := feed.sorted
    rw [hp, List.map_append, List.append_assoc, List.pairwise_append, List.map_cons,
      List.cons_append, List.pairwise_cons] at hs
    rw [hp, List.mem_append, List.mem_cons] at hq
    rcases hq with hq | rfl | hq
    · exact hbefore q hq
    · exact absurd ht hlate
    · have hle : time ≤ q.1 := hs.2.1.1 q.1 (List.mem_append_left _ (List.mem_map_of_mem hq))
      omega

end Feed

/-! ## Waiting over a feed -/

namespace Wait

variable {key : ChannelKey} {deadline : Nat}

/-- A wait whose events all come after the deadline runs out of time. -/
theorem run_of_late {events : List (Nat × StreamEvent)}
    (h : ∀ q ∈ events, deadline < q.1) :
    run key deadline events = (outcome key timedOut, deadline) := by
  cases events with
  | nil => rfl
  | cons q rest => rw [run, if_pos (h q List.mem_cons_self)]

/-- A payload without a result changes nothing, whenever it comes. -/
theorem run_cons_noise {time : Nat} {payload : String} {rest : List (Nat × StreamEvent)}
    (hn : resultOf? key.purpose payload = none) (hs : ∀ q ∈ rest, time ≤ q.1) :
    run key deadline ((time, .message payload) :: rest) = run key deadline rest := by
  by_cases hd : deadline < time
  · rw [run, if_pos hd, run_of_late fun q hq => Nat.lt_of_lt_of_le hd (hs q hq)]
  · rw [run, if_neg hd]
    simp [step, hn, isOver]

/-- A result that comes in time ends the wait. -/
theorem run_cons_result {time : Nat} {payload : String} {result : CeremonyResult}
    {rest : List (Nat × StreamEvent)} (hr : resultOf? key.purpose payload = some result)
    (ht : time < deadline) :
    run key deadline ((time, .message payload) :: rest) = (.ok result, time) := by
  rw [run, if_neg (Nat.not_lt.2 (Nat.le_of_lt ht))]
  simp [step, hr, isOver, outcome]

/-- In a sequence of events in order, the first time is the least. -/
theorem le_of_sorted {q : Nat × String} {payloads : List (Nat × String)} {ending : Option Nat}
    (hs : ((q :: payloads).map Prod.fst ++ ending.toList).Pairwise (· ≤ ·)) :
    ∀ e ∈ streamEvents payloads ending, q.1 ≤ e.1 := by
  rw [List.map_cons, List.cons_append, List.pairwise_cons, ← map_fst_streamEvents] at hs
  exact fun e he => hs.1 e.1 (List.mem_map_of_mem he)

theorem sorted_tail {q : Nat × String} {payloads : List (Nat × String)} {ending : Option Nat}
    (hs : ((q :: payloads).map Prod.fst ++ ending.toList).Pairwise (· ≤ ·)) :
    (payloads.map Prod.fst ++ ending.toList).Pairwise (· ≤ ·) :=
  (List.pairwise_cons.1 hs).2

/-- **Payloads without a result can be left out.** -/
theorem run_filter {payloads : List (Nat × String)} {ending : Option Nat}
    (hs : (payloads.map Prod.fst ++ ending.toList).Pairwise (· ≤ ·)) :
    run key deadline (streamEvents payloads ending) =
      run key deadline (streamEvents
        (payloads.filter fun q => (resultOf? key.purpose q.2).isSome) ending) := by
  induction payloads with
  | nil => rfl
  | cons q payloads ih =>
    have hrest := ih (sorted_tail hs)
    cases hr : resultOf? key.purpose q.2 with
    | none =>
      rw [List.filter_cons_of_neg (by simp [hr]), streamEvents_cons,
        run_cons_noise hr (le_of_sorted hs), hrest]
    | some result =>
      rw [List.filter_cons_of_pos (by simp [hr]), streamEvents_cons, streamEvents_cons, run, run]
      simp only [hrest]

/-- With noise only before it, a result that comes in time is what the wait gives. -/
theorem run_of_first {before after : List (Nat × String)} {ending : Option Nat} {time : Nat}
    {payload : String} {result : CeremonyResult}
    (hs : ((before ++ (time, payload) :: after).map Prod.fst ++ ending.toList).Pairwise (· ≤ ·))
    (hn : ∀ q ∈ before, resultOf? key.purpose q.2 = none)
    (hr : resultOf? key.purpose payload = some result) (ht : time < deadline) :
    run key deadline (streamEvents (before ++ (time, payload) :: after) ending) =
      (.ok result, time) := by
  induction before with
  | nil => exact run_cons_result hr ht
  | cons q before ih =>
    rw [List.cons_append] at hs
    rw [List.cons_append, streamEvents_cons,
      run_cons_noise (hn q List.mem_cons_self) (le_of_sorted hs)]
    exact ih (sorted_tail hs) fun q' hq' => hn q' (List.mem_cons_of_mem q hq')

/-- A stream that carries no result closes the wait when it ends, also at the very deadline. -/
theorem run_of_ended {payloads : List (Nat × String)} {time : Nat}
    (hs : (payloads.map Prod.fst ++ [time]).Pairwise (· ≤ ·))
    (hn : ∀ q ∈ payloads, resultOf? key.purpose q.2 = none) (ht : time ≤ deadline) :
    run key deadline (streamEvents payloads (some time)) =
      (.error (.channelClosed key.name), time) := by
  induction payloads with
  | nil => simp [streamEvents, run, step, isOver, outcome, Nat.not_lt.2 ht]
  | cons q payloads ih =>
    have hle : ∀ r ∈ streamEvents payloads (some time), q.1 ≤ r.1 := le_of_sorted hs
    rw [streamEvents_cons, run_cons_noise (hn q List.mem_cons_self) hle]
    exact ih hs.of_cons fun q' hq' => hn q' (List.mem_cons_of_mem q hq')

/-- What a wait without a result comes to, by the time of the stream's end. -/
def withoutResult (key : ChannelKey) (deadline : Nat) :
    Option Nat → Except Error CeremonyResult × Nat
  | none => (.error (.timeout key.name), deadline)
  | some time =>
    if time < deadline then (.error (.channelClosed key.name), time)
    else (.error (.timeout key.name), deadline)

/-- With nothing but noise before the deadline, the stream's end decides. -/
theorem run_of_noise {payloads : List (Nat × String)} {ending : Option Nat}
    (hs : (payloads.map Prod.fst ++ ending.toList).Pairwise (· ≤ ·))
    (hn : ∀ q ∈ payloads, q.1 < deadline → resultOf? key.purpose q.2 = none)
    (ha : ∀ time ∈ payloads.map Prod.fst ++ ending.toList, time ≠ deadline) :
    run key deadline (streamEvents payloads ending) = withoutResult key deadline ending := by
  induction payloads with
  | nil =>
    cases ending with
    | none => rfl
    | some time =>
      have hne : time ≠ deadline := ha time (by simp)
      by_cases ht : time < deadline
      · rw [run_of_ended hs (by simp) (Nat.le_of_lt ht), withoutResult, if_pos ht]
      · have hlt : deadline < time := by omega
        simp [streamEvents, run, outcome, withoutResult, ht, hlt]
  | cons q payloads ih =>
    by_cases hq : q.1 < deadline
    · rw [streamEvents_cons, run_cons_noise (hn q List.mem_cons_self hq) (le_of_sorted hs)]
      exact ih (sorted_tail hs) (fun q' hq' => hn q' (List.mem_cons_of_mem q hq'))
        fun time ht => ha time (List.mem_cons_of_mem _ ht)
    · have hne : q.1 ≠ deadline := ha q.1 (by simp)
      have hlt : deadline < q.1 := by omega
      have hlate : ∀ time, ending = some time → ¬ time < deadline := by
        intro time htime
        have := le_of_sorted hs (time, .ended) (by simp [streamEvents, htime])
        omega
      rw [streamEvents_cons, run, if_pos hlt]
      cases ending with
      | none => rfl
      | some time => simp [hlate time rfl, outcome, withoutResult]

end Wait

/-! ## The deadline among the events -/

/-- A stream event as a ceremony meets it. -/
def StreamEvent.toEvent : StreamEvent → Event
  | .message payload => .message payload
  | .ended => .ended
  | .deadline => .deadline

/-- What happens to one who waits, in order: timed events with the deadline at its place. -/
def timeline (deadline : Nat) (events : List (Nat × StreamEvent)) : List Event :=
  (events.filter (·.1 ≤ deadline)).map (·.2.toEvent) ++
    .deadline :: (events.filter (deadline < ·.1)).map (·.2.toEvent)

namespace Ceremony

/-- A waiting ceremony takes a stream event as a wait does. -/
theorem step_waiting (c : Ceremony) (event : StreamEvent) :
    c.step .waiting event.toEvent = c.afterWait event := by
  cases event <;> rfl

/-- **A ceremony in its waiting phase ends as the wait does**, and releases its subscription. -/
theorem run_timeline (c : Ceremony) (deadline : Nat) {events : List (Nat × StreamEvent)}
    (hs : (events.map Prod.fst).Pairwise (· ≤ ·)) :
    c.run .waiting (timeline deadline events) =
      (.finished (.returned (Wait.run c.channel deadline events).1), [.release]) := by
  induction events with
  | nil => simp [timeline, Wait.run, run, step, afterWait, Wait.step]
  | cons q rest ih =>
    obtain ⟨time, event⟩ := q
    rw [List.map_cons, List.pairwise_cons] at hs
    by_cases hd : deadline < time
    · -- everything comes after the deadline
      have hlate : ∀ e ∈ (time, event) :: rest, deadline < e.1 := by
        intro e he
        rcases List.mem_cons.1 he with rfl | he
        · exact hd
        · exact Nat.lt_of_lt_of_le hd (hs.1 e.1 (List.mem_map_of_mem he))
      have hnone : ((time, event) :: rest).filter (·.1 ≤ deadline) = [] := by
        rw [List.filter_eq_nil_iff]
        intro e he
        simpa using hlate e he
      rw [timeline, hnone, Wait.run_of_late hlate]
      simp [run, step, afterWait, Wait.step, run_finished]
    · have hsplit : timeline deadline ((time, event) :: rest) =
          event.toEvent :: timeline deadline rest := by
        have hle : time ≤ deadline := Nat.not_lt.1 hd
        simp [timeline, hd, hle]
      rw [hsplit, run, step_waiting, Wait.run, if_neg hd, afterWait]
      cases hw : Wait.step c.channel.purpose .awaiting event with
      | awaiting => simp [Wait.isOver, ih hs.2]
      | complete result => simp [Wait.isOver, run_finished]
      | closed => simp [Wait.isOver, run_finished]
      | timedOut => simp [Wait.isOver, run_finished]

end Ceremony

/-! ## The outcome -/

/-- **The outcome of a wait.** Of a feed that avoids the deadline, the first payload with a result
that comes before the deadline wins. Without one the wait is closed when the stream ends before the
deadline, and else it runs out of time at the deadline. So only the payloads with results and the
end matter: whatever noise is put in, left out or moved, the outcome and its time stay. A ceremony
that waits ends in the same way and releases its subscription once. -/
theorem wait_outcome (key : ChannelKey) (feed : Feed) (deadline : Nat) (ha : feed.Avoids deadline) :
    (∀ time result, feed.First key.purpose deadline time result →
      Wait.run key deadline feed.events = (.ok result, time)) ∧
    ((∀ time result, ¬ feed.First key.purpose deadline time result) →
      (∀ time, feed.ending = some time → time < deadline →
        Wait.run key deadline feed.events = (.error (.channelClosed key.name), time)) ∧
      ((∀ time, feed.ending = some time → deadline ≤ time) →
        Wait.run key deadline feed.events = (.error (.timeout key.name), deadline))) ∧
    (∀ other : Feed, other.signal key.purpose = feed.signal key.purpose →
      other.ending = feed.ending →
      Wait.run key deadline other.events = Wait.run key deadline feed.events) ∧
    ∀ c : Ceremony, c.channel = key →
      c.run .waiting (timeline deadline feed.events) =
        (.finished (.returned (Wait.run key deadline feed.events).1), [.release]) := by
  refine ⟨?_, fun hnone => ?_, ?_, ?_⟩
  · rintro time result ⟨before, payload, after, hp, hn, hr, ht⟩
    have hs := feed.sorted
    rw [Feed.events, hp]
    rw [hp] at hs
    exact Wait.run_of_first hs (fun q hq => noise_iff.1 (hn q hq)) (resultOf?_eq_some_iff.2 hr) ht
  · have hrun := Wait.run_of_noise feed.sorted (feed.noise_of_no_first hnone) ha
    rw [Feed.events, hrun]
    constructor
    · intro time he ht
      simp [Wait.withoutResult, he, ht]
    · intro hle
      cases he : feed.ending with
      | none => rfl
      | some time => simp [Wait.withoutResult, Nat.not_lt.2 (hle time he)]
  · intro other hsig hend
    rw [Feed.events, Feed.events, Wait.run_filter other.sorted, Wait.run_filter feed.sorted, hend]
    exact congrArg (fun payloads => Wait.run key deadline (streamEvents payloads feed.ending)) hsig
  · rintro c rfl
    exact c.run_timeline deadline (by rw [Feed.events, map_fst_streamEvents]; exact feed.sorted)

/-- A signing's feed: a heartbeat, the object of a key generation and a signature that is no Base64,
then a result, a second one, and the stream's end after the deadline. -/
def noisyFeed : Feed where
  payloads :=
    [(0, "heartbeat"), (1, "\x7b\"share_data\":\"c2hhcmU=\",\"pub_key\":\"0x01\"\x7d"),
      (2, "\x7b\"signature\":\"***\"\x7d"), (3, "\x7b\"signature\":\"MAYCAQECAQE=\"\x7d"),
      (4, "\x7b\"signature\":\"AAAA\"\x7d")]
  ending := some 6
  sorted := by decide

/-- The channel of a signing. -/
def signingKey : ChannelKey := ⟨.sign, ⟨"s2", by decide, by decide, by decide⟩⟩

theorem wait_outcome_noisyFeed :
    noisyFeed.Avoids 5 ∧ Wait.run signingKey 5 noisyFeed.events =
      (.ok (.sign ⟨[0x30, 6, 2, 1, 1, 2, 1, 1]⟩), 3) := by
  have ha : noisyFeed.Avoids 5 := by decide
  have hn : ∀ q ∈ noisyFeed.payloads.take 3, resultOf? signingKey.purpose q.2 = none := by
    decide +kernel
  refine ⟨ha, (wait_outcome signingKey noisyFeed 5 ha).1 3 _ ⟨noisyFeed.payloads.take 3, _,
    noisyFeed.payloads.drop 4, rfl, fun q hq => noise_iff.2 (hn q hq),
    resultOf?_eq_some_iff.1 ?_, by decide⟩⟩
  decide +kernel

end Custody
