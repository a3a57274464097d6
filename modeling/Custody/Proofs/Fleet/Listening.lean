import Custody.Proofs.Ceremony.Outcome
import Custody.Proofs.Hub.Feed
/-!
# One who listens on a hub

A ceremony without a trigger that listens on a hub meets what its receiver yields, and the deadline
at its place (`Fleet.listen_outcome`): it ends as a wait over `Hub.feed`.

The runs of the fleet are followed through `Fleet.Lone`. Between two rounds the listener waits and
its receiver is as good as new (`Fleet.Listens`), or it has ended.
-/

namespace Custody

open Ceremony

/-! ## Reading as a course -/

namespace Ceremony

/-- Reading payloads is a course of messages. -/
theorem run_messages (c : Ceremony) (payloads : List String) :
    c.run .waiting (payloads.map .message) = Fleet.readAll c .waiting payloads := by
  induction payloads with
  | nil => rfl
  | cons payload rest ih =>
    rw [List.map_cons, run_cons, Fleet.readAll]
    rcases c.step_message payload with hstep | ⟨outcome, hstep⟩
    · simp only [hstep, List.nil_append, ih]
    · simp only [hstep, run_finished, List.append_nil]

/-- Reading payloads goes on or ends, and then gives the subscription back. -/
theorem readAll_cases (c : Ceremony) (payloads : List String) :
    Fleet.readAll c .waiting payloads = (.waiting, []) ∨
      ∃ outcome, Fleet.readAll c .waiting payloads = (.finished outcome, [.release]) := by
  induction payloads with
  | nil => exact .inl rfl
  | cons payload rest ih =>
    rcases c.step_message payload with hstep | ⟨outcome, hstep⟩
    · simpa only [Fleet.readAll, hstep] using ih
    · exact .inr ⟨outcome, by simp only [Fleet.readAll, hstep]⟩

/-- Nothing happens to a ceremony that is over. -/
theorem run_of_over (c : Ceremony) {phase : Phase} (h : phase.outcome?.isSome = true)
    (events : List Event) : (c.run phase events).1 = phase := by
  obtain ⟨outcome, ho⟩ := Option.isSome_iff_exists.1 h
  rw [Phase.outcome?_eq_some_iff.1 ho, run_finished]

/-- A ceremony that waits is over when its stream has ended. -/
theorem over_of_ended (c : Ceremony) {phase : Phase}
    (h : phase = .waiting ∨ phase.outcome?.isSome = true) (payloads : List String) :
    (c.run phase (payloads.map .message ++ [.ended])).1.outcome?.isSome = true := by
  rcases h with rfl | hover
  · rw [run_append, run_messages]
    rcases c.readAll_cases payloads with hread | ⟨outcome, hread⟩ <;> rw [hread]
    · rfl
    · rw [run_finished]
      rfl
  · rwa [run_of_over c hover]

/-- A ceremony that waits is over when it has met the deadline. -/
theorem over_of_deadline (c : Ceremony) {phase : Phase}
    (h : phase = .waiting ∨ phase.outcome?.isSome = true) :
    (c.run phase [.deadline]).1.outcome?.isSome = true := by
  rcases h with rfl | hover
  · rfl
  · rwa [run_of_over c hover]

/-- A ceremony that meets a stream up to the deadline, and then the deadline. -/
theorem run_deadline (c : Ceremony) {deadline : Nat} {events : List (Nat × StreamEvent)}
    (hs : (events.map Prod.fst).Pairwise (· ≤ ·))
    (h : (c.run .waiting ((events.filter (·.1 ≤ deadline)).map (·.2.toEvent))).1 = .waiting ∨
      (c.run .waiting ((events.filter (·.1 ≤ deadline)).map
        (·.2.toEvent))).1.outcome?.isSome = true) :
    (c.run (c.run .waiting ((events.filter (·.1 ≤ deadline)).map (·.2.toEvent))).1
        [.deadline]).1 = .finished (.returned (Wait.run c.channel deadline events).1) := by
  have hline := c.run_timeline deadline hs
  rw [timeline, run_append, ← List.singleton_append, run_append] at hline
  rw [← run_of_over c (c.over_of_deadline h)]
  exact congrArg Prod.fst hline

end Ceremony

/-- What a round of operations says on a channel, as one who waits meets it. -/
def Hub.roundEvents (capacity : Nat) (channel : String) (ops : List Hub.Operation) : List Event :=
  (Receiver.keepLast capacity (Hub.aired channel ops)).map .message ++
    if .close channel ∈ ops then [.ended] else []

namespace Fleet

variable {fleet : Fleet} {run : Run} {id : ReceiverId} {capacity : Nat}

/-! ## A listener between rounds -/

/-- One run of the fleet goes on, or has ended last. While it waits its receiver is as good as
new. -/
structure Listens (fleet : Fleet) (run : Run) (id : ReceiverId) (capacity : Nat) : Prop where
  lone : fleet.Lone run
  waits_or_over : run.phase = .waiting ∨ run.phase.outcome?.isSome = true
  fresh : run.phase = .waiting → run.receiver = some id ∧
    fleet.hub.HasNew run.ceremony.channel.name id ∧ fleet.hub.capacity = capacity

/-- A run that reads what its receiver holds does what it would do if it met it. -/
theorem settleRun_of_fresh {hub : Hub} (hs : hub.Sound) (hp : run.phase = .waiting)
    (hid : run.receiver = some id) {r : Receiver} (hr : hub.receiver? id = some r) :
    (settleRun hub run).2.phase = (run.ceremony.run .waiting
        (r.pending.map .message ++ if r.isOpen then [] else [.ended])).1 ∧
      ((settleRun hub run).2.phase = .waiting → r.isOpen = true ∧
        settleRun hub run = (hub.skim id r.pending.length, run)) := by
  rw [Run.settleRun_eq hs hp hid hr, run_append, run_messages]
  cases ho : r.isOpen with
  | true =>
    simp only [if_true]
    rw [(Run.release_phase_ceremony ..).1]
    refine ⟨rfl, fun hwaits => ⟨trivial, ?_⟩⟩
    rcases run.ceremony.readAll_cases r.pending with hread | ⟨outcome, hread⟩
    · rw [hread, Run.release_of_not_mem List.not_mem_nil, ← hp]
    · rw [hread] at hwaits
      cases hwaits
  | false =>
    simp only [Bool.false_eq_true, if_false]
    rw [(Run.release_phase_ceremony ..).1]
    refine ⟨rfl, fun hwaits => ?_⟩
    rcases run.ceremony.readAll_cases r.pending with hread | ⟨outcome, hread⟩
    · rw [hread] at hwaits
      cases hwaits
    · rw [hread, step_finished] at hwaits
      cases hwaits

theorem settleRun_waits_or_over (hub : Hub)
    (h : run.phase = .waiting ∨ run.phase.outcome?.isSome = true) :
    (settleRun hub run).2.phase = .waiting ∨
      (settleRun hub run).2.phase.outcome?.isSome = true := by
  rcases h with hp | hover
  · rcases Run.settleRun_phase hub hp with hwaits | ⟨result, hphase⟩ | hphase
    · exact .inl hwaits
    · exact .inr (by rw [hphase]; rfl)
    · exact .inr (by rw [hphase]; rfl)
  · have hne : run.phase ≠ .waiting := fun hp => by rw [hp] at hover; cases hover
    exact .inr (by rwa [Run.settleRun_of_phase_ne hne])

/-- What others do neither reads with a receiver nor drops it. -/
theorem spares_operations (ops : List Outside) (id : ReceiverId) :
    ∀ op ∈ ops.map Outside.operation, op.Spares id := by
  intro op hop
  obtain ⟨o, -, rfl⟩ := List.mem_map.1 hop
  exact Hub.Operation.spares_outside id o

/-- **A listener after a round of operations.** -/
theorem Listens.outside (h : fleet.Listens run id capacity) (ops : List Outside) :
    ∃ next, (fleet.step (.outside ops)).2.Listens next id capacity ∧
      next.id = run.id ∧ next.ceremony = run.ceremony ∧
      next.phase = (run.ceremony.run run.phase (Hub.roundEvents capacity
        run.ceremony.channel.name (ops.map Outside.operation))).1 := by
  obtain ⟨-, hhub, hlone⟩ := h.lone.step (.outside ops)
  simp only [Run.meet] at hhub hlone
  rcases h.waits_or_over with hp | hover
  · obtain ⟨hid, hnew, rfl⟩ := h.fresh hp
    have hs := Hub.sound_run hnew.sound (ops.map Outside.operation)
    have hr := hnew.receiver?_of_spares (spares_operations ops id)
    obtain ⟨hphase, hwaiting⟩ := settleRun_of_fresh hs hp hid hr
    refine ⟨_, ⟨hlone, settleRun_waits_or_over _ h.waits_or_over, fun hwaits => ?_⟩,
      settleRun_id .., Run.settleRun_ceremony .., ?_⟩
    · obtain ⟨hopen, hsettled⟩ := hwaiting hwaits
      rw [hsettled] at hhub ⊢
      rw [hhub]
      exact ⟨hid, Hub.hasNew_skim hs hr hopen, Hub.capacity_run ..⟩
    · rw [hphase, hp, Hub.roundEvents]
      by_cases hc : .close run.ceremony.channel.name ∈ ops.map Outside.operation <;> simp [hc]
  · have hne : run.phase ≠ .waiting := fun hp => by rw [hp] at hover; cases hover
    rw [Run.settleRun_of_phase_ne hne] at hlone
    exact ⟨run, ⟨hlone, .inr hover, fun hp => absurd hp hne⟩, rfl, rfl,
      (run.ceremony.run_of_over hover _).symm⟩

/-! ## Many rounds -/

/-- **What a ceremony meets that hears rounds** it meets one round after the other. -/
theorem run_heard_cons (c : Ceremony) {phase : Phase}
    (h : phase = .waiting ∨ phase.outcome?.isSome = true) (capacity time : Nat)
    (ops : List Hub.Operation) (rest : List (Nat × List Hub.Operation)) :
    (c.run phase ((Hub.heard capacity c.channel.name ((time, ops) :: rest)).map (·.2.toEvent))).1 =
      (c.run (c.run phase (Hub.roundEvents capacity c.channel.name ops)).1
        ((Hub.heard capacity c.channel.name rest).map (·.2.toEvent))).1 := by
  rw [Hub.heard, Hub.roundEvents, List.map_append, List.map_map]
  by_cases hc : .close c.channel.name ∈ ops
  · simp only [hc, if_true]
    exact (run_of_over c (c.over_of_ended h _) _).symm
  · simp only [hc, if_false, List.append_nil, run_append]
    rfl

/-- **A listener after rounds of operations.** -/
theorem Listens.rounds (h : fleet.Listens run id capacity) (rounds : List (Nat × List Outside)) :
    ∃ next, (fleet.steps (rounds.map fun round => .outside round.2)).Lone next ∧
      next.id = run.id ∧ next.ceremony = run.ceremony ∧
      (next.phase = .waiting ∨ next.phase.outcome?.isSome = true) ∧
      next.phase = (run.ceremony.run run.phase ((Hub.heard capacity run.ceremony.channel.name
        (rounds.map fun round => (round.1, round.2.map Outside.operation))).map
          (·.2.toEvent))).1 := by
  induction rounds generalizing fleet run with
  | nil => exact ⟨run, h.lone, rfl, rfl, h.waits_or_over, rfl⟩
  | cons round rest ih =>
    obtain ⟨next, hnext, hid, hc, hphase⟩ := h.outside round.2
    obtain ⟨last, hlone, hid', hc', hends, hphase'⟩ := ih hnext
    refine ⟨last, hlone, hid'.trans hid, hc'.trans hc, hends, ?_⟩
    rw [hphase', hc, hphase, List.map_cons, run_heard_cons _ h.waits_or_over]

/-! ## The deadline -/

/-- **One who listens meets the deadline.** -/
theorem Lone.deadline (h : fleet.Lone run)
    (hends : run.phase = .waiting ∨ run.phase.outcome?.isSome = true) :
    ((fleet.step (.event run.id .deadline)).2.run? run.id).map Run.phase =
      some (run.ceremony.run run.phase [.deadline]).1 := by
  obtain ⟨-, -, hlone⟩ := h.step (.event run.id .deadline)
  have hphase : (run.meet fleet.hub (.event run.id .deadline)).2.2.phase =
      (run.ceremony.run run.phase [.deadline]).1 := by
    simp only [Run.meet, if_true, advance]
    exact (Run.release_phase_ceremony ..).1
  have hid : (run.meet fleet.hub (.event run.id .deadline)).2.2.id = run.id :=
    (run.meet_id_ceremony fleet.hub _).1
  have hne : (run.meet fleet.hub (.event run.id .deadline)).2.2.phase ≠ .waiting := by
    intro hp
    have hover := run.ceremony.over_of_deadline hends
    rw [← hphase, hp] at hover
    cases hover
  rw [Run.settleRun_of_phase_ne hne] at hlone
  have hrun := hlone.run?
  rw [hid] at hrun
  rw [hrun, Option.map_some, hphase]

end Fleet

/-! ## Times -/

namespace Hub

variable {capacity : Nat} {channel : String} {rounds : List (Nat × List Operation)}

/-- What is heard has the times of rounds. -/
theorem time_mem_of_heard {event : Nat × StreamEvent} (h : event ∈ heard capacity channel rounds) :
    event.1 ∈ rounds.map Prod.fst := by
  induction rounds with
  | nil => cases h
  | cons round rest ih =>
    obtain ⟨time, ops⟩ := round
    rw [heard, List.mem_append] at h
    rw [List.map_cons, List.mem_cons]
    rcases h with h | h
    · obtain ⟨payload, -, rfl⟩ := List.mem_map.1 h
      exact .inl rfl
    · split at h
      · rw [List.mem_singleton.1 h]
        exact .inl rfl
      · exact .inr (ih h)

/-- What is heard is in the order of the rounds. -/
theorem heard_sorted (h : (rounds.map Prod.fst).Pairwise (· ≤ ·)) :
    ((heard capacity channel rounds).map Prod.fst).Pairwise (· ≤ ·) := by
  induction rounds with
  | nil => exact .nil
  | cons round rest ih =>
    obtain ⟨time, ops⟩ := round
    rw [List.map_cons, List.pairwise_cons] at h
    rw [heard, List.map_append, List.map_map, List.pairwise_append]
    refine ⟨List.pairwise_map.2 (List.pairwise_of_forall fun _ _ => Nat.le_refl time), ?_, ?_⟩
    · split
      · exact List.pairwise_singleton ..
      · exact ih h.2
    · intro first hfirst later hlater
      obtain ⟨payload, -, rfl⟩ := List.mem_map.1 hfirst
      obtain ⟨event, hevent, rfl⟩ := List.mem_map.1 hlater
      split at hevent
      · rw [List.mem_singleton.1 hevent]
        exact Nat.le_refl time
      · exact h.1 _ (time_mem_of_heard hevent)

/-- What is heard up to a time is what the rounds up to it say. -/
theorem heard_filter (h : (rounds.map Prod.fst).Pairwise (· ≤ ·)) (deadline : Nat) :
    heard capacity channel (rounds.filter (·.1 ≤ deadline)) =
      (heard capacity channel rounds).filter (·.1 ≤ deadline) := by
  induction rounds with
  | nil => rfl
  | cons round rest ih =>
    obtain ⟨time, ops⟩ := round
    have hrest := h
    rw [List.map_cons, List.pairwise_cons] at h
    by_cases ht : time ≤ deadline
    · rw [List.filter_cons_of_pos (by simpa using ht), heard, heard, List.filter_append, ih h.2]
      congr 1
      · refine (List.filter_eq_self.2 fun event hevent => ?_).symm
        obtain ⟨payload, -, rfl⟩ := List.mem_map.1 hevent
        simpa using ht
      · split
        · simp [ht]
        · rfl
    · -- all that follows is later still
      have hlate : ∀ t ∈ ((time, ops) :: rest).map Prod.fst, deadline < t := by
        intro t hmem
        rcases List.mem_cons.1 hmem with rfl | hmem
        · exact Nat.not_le.1 ht
        · exact Nat.lt_of_lt_of_le (Nat.not_le.1 ht) (h.1 t hmem)
      rw [List.filter_eq_nil_iff.2 fun round hround =>
          by simpa using hlate round.1 (List.mem_map_of_mem hround),
        List.filter_eq_nil_iff.2 fun event hevent => by
          simpa using hlate _ (time_mem_of_heard hevent)]
      rfl

end Hub

namespace Fleet

/-- A listener whose subscription has just been opened. -/
theorem listens_attach {hub attached : Hub} {id : ReceiverId} (hs : hub.Sound) (c : Ceremony)
    (hplan : c.plan = .listen) (h : hub.subscribe c.channel.name = .ok (id, attached)) :
    ∃ run, (((Fleet.new hub).launch 0 c).2.step (.attach 0)).2.Listens run id attached.capacity ∧
      run.id = 0 ∧ run.ceremony = c ∧ run.phase = .waiting := by
  have hstart : c.start.1 = .opening := by simp [Ceremony.start, hplan]
  have hidle : (Fleet.new hub).Idle 0 := fun r hr => by cases hr
  obtain ⟨hvalid, rfl, hattached, hreceiver⟩ := Hub.receiver?_subscribe hs h
  have hs' : attached.Sound := hattached ▸ hs.apply _
  obtain ⟨-, hhub, hlone⟩ := (hidle.lone_launch c).step (.attach 0)
  have hmeet : Run.meet ((Fleet.new hub).launch 0 c).2.hub ⟨0, c, c.start.1, none⟩ (.attach 0) =
      ([], attached, ⟨0, c, .waiting, some hub.next⟩) := by
    have hsub : hub.subscribe (Run.mk 0 c c.start.1 none).channel = .ok (hub.next, attached) := h
    simp only [Run.meet, launch, Fleet.new, hstart, Phase.awaitsAttachment, and_self, if_true]
    simp only [hstart] at hsub
    simp [hsub, advance, Ceremony.step, release]
  -- there is nothing to read yet
  have hsettled : settleRun attached ⟨0, c, .waiting, some hub.next⟩ =
      (attached, ⟨0, c, .waiting, some hub.next⟩) := by
    rw [Run.settleRun_eq hs' rfl rfl hreceiver]
    simp only [readAll, if_true, List.length_nil, Hub.skim_zero]
    exact Run.release_of_not_mem List.not_mem_nil
  rw [hmeet, hsettled] at hhub hlone
  refine ⟨_, ⟨hlone, .inl rfl, fun _ => ⟨rfl, ?_, ?_⟩⟩, rfl, rfl, rfl⟩
  · rw [hhub]
    exact ⟨hs', hreceiver⟩
  · rw [hhub]

/-- **One who listens on a hub** until a deadline is told what a wait over the payloads of its
receiver is told. -/
theorem listen_outcome {hub attached : Hub} {id : ReceiverId} (hs : hub.Sound) (key : ChannelKey)
    (h : hub.subscribe key.name = .ok (id, attached)) {rounds : List (Nat × List Outside)}
    (hsorted : (rounds.map Prod.fst).Pairwise (· ≤ ·)) (deadline : Nat) :
    let c : Ceremony := ⟨key, key.purpose.action, .listen⟩
    let inputs := .attach 0 ::
      ((rounds.filter (·.1 ≤ deadline)).map (fun round => .outside round.2) ++ [.event 0 .deadline])
    ((((Fleet.new hub).launch 0 c).2.steps inputs).run? 0).map Run.phase =
      some (.finished (.returned (Wait.run key deadline (attached.feed id
        (rounds.map fun round => (round.1, round.2.map Outside.operation)))).1)) := by
  intro c inputs
  obtain ⟨run, hlistens, hid, hc, hp⟩ := listens_attach hs c rfl h
  obtain ⟨next, hlone, hid', hc', hends, hphase⟩ :=
    hlistens.rounds (rounds.filter (·.1 ≤ deadline))
  rw [hid] at hid'
  have hdeadline := hlone.deadline hends
  rw [hid', hc', hc, hphase, hc, hp] at hdeadline
  have hinputs : ((Fleet.new hub).launch 0 c).2.steps inputs =
      (((((Fleet.new hub).launch 0 c).2.step (.attach 0)).2.steps
        ((rounds.filter (·.1 ≤ deadline)).map fun round => .outside round.2)).step
          (.event 0 .deadline)).2 := by
    simp only [inputs, steps, steps_append]
  rw [hinputs, hdeadline]
  -- what the ceremony has met is the time line up to the deadline
  have hnew : attached.HasNew key.name id := by
    obtain ⟨-, -, hattached, hreceiver⟩ := Hub.receiver?_subscribe hs h
    exact ⟨hattached ▸ hs.apply _, hreceiver⟩
  let ops : List (Nat × List Hub.Operation) :=
    rounds.map fun round => (round.1, round.2.map Outside.operation)
  have hfeed : attached.feed id ops = Hub.heard attached.capacity key.name ops := by
    refine hnew.feed_eq fun round hround => ?_
    obtain ⟨round, -, rfl⟩ := List.mem_map.1 hround
    exact spares_operations round.2 id
  have htimes : (ops.map Prod.fst).Pairwise (· ≤ ·) := by
    rwa [List.map_map]
  have hfiltered : (rounds.filter (·.1 ≤ deadline)).map
      (fun round => (round.1, round.2.map Outside.operation)) = ops.filter (·.1 ≤ deadline) := by
    simp only [ops, List.filter_map]
    rfl
  rw [hc, hp] at hphase
  rw [hfiltered, Hub.heard_filter htimes] at hphase ⊢
  rw [c.run_deadline (Hub.heard_sorted htimes) (hphase ▸ hends), hfeed]

end Fleet

end Custody
