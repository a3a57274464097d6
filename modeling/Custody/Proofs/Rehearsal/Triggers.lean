import Custody.Proofs.Ceremony.Trigger
import Custody.Proofs.Rehearsal.Accounts
/-!
# Triggers that reach the cluster

The cluster and the caller work out independently of each other on which channel a result belongs:
the cluster from what it reads off the wire, the caller from the session that it has made. They come
to the same channel (`faithful_triggers`), for a call by itself and at every moment of a rehearsal
in which many calls go on.

* `World.CarriesOut`: what ties a run to its call and to the request that is sent for it.
* `World.Accounts.triggers`: each run carries out a call, and nothing else is sent.
-/

namespace Custody

open Ceremony

namespace Rehearsal

namespace World

variable {w : World} {pieces : List Piece}

/-! ## Runs and what is sent for them -/

theorem requests_after (w : World) (delay : Nat) (o : Occurrence) :
    (w.after delay o).requests = w.requests := by
  unfold after
  split <;> rfl

theorem requests_notify (w : World) (id : Nat) (request : ActionRequest) :
    (w.notify id request).requests = w.requests ++ [request] := by
  have hfollow (w : World) (script : List (Nat × List Outside)) :
      (w.follow script).requests = w.requests := by
    induction script generalizing w with
    | nil => rfl
    | cons burst rest ih => exact (ih _).trans (requests_after ..)
  have hanswer (w : World) (delay : Option Nat) (input : Fleet.Input) :
      (w.answer delay input).requests = w.requests := by
    cases delay with
    | none => rfl
    | some delay => exact requests_after ..
  exact (hfollow ..).trans (hanswer ..)

/-- `w.CarriesOut run config call request`: the run is that of the call, the request is what is sent
for it, and if it holds a receiver, that listens on the channel that the request names. -/
structure CarriesOut (w : World) (run : Run) (config : Config) (call : Call)
    (request : ActionRequest) : Prop where
  ceremony : run.ceremony = call.ceremony config
  trigger : call.IsTrigger config request
  sends : (w.serve (run.id, .notify)).requests = w.requests ++ [request]
  listens : ∀ r ∈ w.fleet.hub.receivers, run.receiver = some r.id → r.channel = channelOf request

/-- **A run carries out the call of its task.** -/
theorem Accounts.carriesOut (h : w.Accounts pieces) {run : Run} (hrun : run ∈ w.fleet.runs)
    {task : Task} (htask : task ∈ w.tasks)
    (hsame : (task.id, task.ceremony) = (run.id, run.ceremony)) {request : ActionRequest}
    (hrequest : task.request = some request) :
    ∃ piece ∈ pieces, ∃ call ∈ piece.calls,
      w.CarriesOut run piece.coordinator.config call request := by
  obtain ⟨hid, hceremony⟩ := Prod.mk.inj hsame
  obtain ⟨piece, hpiece, call, hcall, sent, hsent, heq⟩ :=
    h.known task (List.mem_append_left _ htask)
  obtain rfl : sent = request := by
    rw [heq] at hrequest
    exact Option.some.inj hrequest
  have htrigger := Call.isTrigger_of_request hsent
  have hown : call.ceremony piece.coordinator.config = run.ceremony := by
    rw [← hceremony, heq]
    rfl
  refine ⟨piece, hpiece, call, hcall, hown.symm, htrigger, ?_, fun r hr hreceiver => ?_⟩
  · -- nobody else has the number of the task
    have hfind : w.tasks.find? (·.id == run.id) = some task := by
      obtain ⟨found, hfound⟩ : ∃ found, w.tasks.find? (·.id == run.id) = some found :=
        Option.isSome_iff_exists.1 (List.find?_isSome.2 ⟨task, htask, by simp [hid]⟩)
      have hfoundid : found.id = task.id := by
        rw [hid]
        simpa using List.find?_some hfound
      rw [hfound, List.inj_on_of_nodup_map h.nodup_tasks
        (List.mem_of_find?_eq_some hfound) htask hfoundid]
    rw [World.serve, hfind]
    simp only [Option.bind_some, hrequest]
    exact requests_notify ..
  · rw [((h.tuned.runs run hrun) r.id hreceiver).2 r hr rfl, Run.channel, ← hown]
    exact congrArg ChannelKey.name htrigger.channel.symm

/-- **Every trigger is that of a call**, and every call that goes on has its own. -/
theorem Accounts.triggers (h : w.Accounts pieces) :
    (∀ run ∈ w.fleet.runs, ∃ request, ∃ piece ∈ pieces, ∃ call ∈ piece.calls,
      w.CarriesOut run piece.coordinator.config call request) ∧
    ∀ request ∈ w.requests, ∃ run ∈ w.fleet.runs, ∃ piece ∈ pieces, ∃ call ∈ piece.calls,
      w.CarriesOut run piece.coordinator.config call request := by
  have hnames (name : Nat × Ceremony) : (∃ run ∈ w.fleet.runs, (run.id, run.ceremony) = name) ↔
      ∃ task ∈ w.tasks, (task.id, task.ceremony) = name := by
    rw [← List.mem_map, ← List.mem_map]
    exact iff_of_eq (congrArg (name ∈ ·) h.names)
  constructor
  · intro run hrun
    obtain ⟨task, htask, hsame⟩ := (hnames _).1 ⟨run, hrun, rfl⟩
    obtain ⟨piece, _, call, _, request, _, heq⟩ := h.known task (List.mem_append_left _ htask)
    exact ⟨request, h.carriesOut hrun htask hsame (by rw [heq]; rfl)⟩
  · intro request hrequest
    obtain ⟨task, htask, hsent⟩ := h.requests request hrequest
    obtain ⟨run, hrun, hsame⟩ := (hnames _).2 ⟨task, htask, rfl⟩
    exact ⟨run, hrun, h.carriesOut hrun htask hsame.symm hsent⟩

end World

end Rehearsal

/-! ## The triggers -/

open Rehearsal in
/-- **Every trigger is well formed and names the channel that is awaited.** A request survives its
way over the wire, whatever it holds. A call that asks for its trigger has one: its parties are
those of the configuration, no two of them the same, with a threshold between one and their number;
a signing carries the share and the digest of its caller, a key generation neither; and the channel
that is worked out from what is read off the wire is the one that the call's ceremony listens on.
The wallet program's configuration has the parties and the threshold that its user names.

While any calls go on over a hub, what is sent for a run is the trigger of its own call, nothing but
that is ever sent, a receiver that the run holds listens on the channel that the trigger names, and
the cluster is about to publish on no other channels. -/
theorem faithful_triggers :
    (∀ request : ActionRequest, ActionRequest.ofTree (.ofText request.render) = .ok request) ∧
    (∀ config coordinator, Coordinator.ofConfig config = .ok coordinator →
      ∀ call events, .notify ∈ Call.asked coordinator.config call events →
        ∃ request, call.request coordinator.config = .ok request ∧ call.IsTrigger config request ∧
          ∀ client peer post, Client.ControlPlane.post? client peer request = some post →
            ActionRequest.ofTree (.ofText post.body) = .ok request) ∧
    (∀ options coordinator, Wallet.Options.coordinator options = .ok coordinator →
      coordinator.config.parties = options.parties ∧
        coordinator.config.threshold = options.threshold) ∧
    ∀ capacity earlier frames pieces,
      let hub := ((Hub.new capacity).run earlier).2
      World.Reached hub frames pieces ((World.staged hub frames).performAll pieces) ∧
      ∀ w, World.Reached hub frames pieces w →
        (∀ run ∈ w.fleet.runs, ∃ request, ∃ piece ∈ pieces, ∃ call ∈ piece.calls,
          w.CarriesOut run piece.coordinator.config call request) ∧
        (∀ request ∈ w.requests, ∃ run ∈ w.fleet.runs, ∃ piece ∈ pieces, ∃ call ∈ piece.calls,
          w.CarriesOut run piece.coordinator.config call request) ∧
        ∀ r ∈ w.responders, ∃ request ∈ w.requests, r.channel = channelOf request := by
  refine ⟨ActionRequest.ofTree_ofText_render, fun config coordinator hnew call events hnotify => ?_,
    fun _ _ => Wallet.Options.config_of_coordinator, fun capacity earlier frames pieces =>
      ⟨World.Reached.staged.performAll fun _ hpiece => hpiece, fun w hreached => ?_⟩⟩
  · obtain ⟨request, hrequest, htrigger⟩ := Call.exists_isTrigger_of_notify hnotify
    rw [Coordinator.config_of_ofConfig hnew] at htrigger
    exact ⟨request, hrequest, htrigger, fun _ _ _ => Client.ControlPlane.ofTree_ofText_body⟩
  · have hw := hreached.accounts (Hub.sound_run (Hub.sound_new capacity) earlier)
    exact ⟨hw.triggers.1, hw.triggers.2, hw.responders⟩

/-- The call that signs a digest in the session `s5`. -/
def Call.firstSigning : Call :=
  .signRaw ⟨"s5", by decide, by decide, by decide⟩ [0x73, 0x68] (List.replicate 32 7)

namespace Rehearsal

/-- A key generation and a signing at a time, with a cluster that waits for listeners. -/
def duet : Piece where
  cluster := .responding none 5000 fun _ => some ["heartbeat"]
  broker := .prompt
  coordinator := .standard
  calls := [.firstWallet, .firstSigning]

/-- The moment at which both triggers have been sent, both subscriptions are open and the cluster is
about to publish. -/
def duetMoment : World :=
  World.runFor 6 ((World.staged .standard []).planned duet) [0, 1]

end Rehearsal

open Rehearsal in
theorem faithful_triggers_of_duet :
    Coordinator.ofConfig .standard = .ok .standard ∧
    .notify ∈ Call.firstSigning.asked Coordinator.standard.config [] ∧
    (∃ request, Call.firstSigning.request Coordinator.standard.config = .ok request ∧
      Call.firstSigning.IsTrigger .standard request) ∧
    (duetMoment.requests.map channelOf = ["keygen:s1", "sign:s5"] ∧
      duetMoment.fleet.hub.receivers.map Receiver.channel = ["keygen:s1", "sign:s5"] ∧
      duetMoment.responders.map Responder.channel = ["keygen:s1", "sign:s5"]) ∧
    ∀ request ∈ duetMoment.requests, ∃ run ∈ duetMoment.fleet.runs, ∃ piece ∈ [duet],
      ∃ call ∈ piece.calls, duetMoment.CarriesOut run piece.coordinator.config call request := by
  obtain ⟨-, hcalls, -, hmoments⟩ := faithful_triggers
  have hnew : Coordinator.ofConfig .standard = .ok .standard := rfl
  have hnotify : .notify ∈ Call.firstSigning.asked Coordinator.standard.config [] := by decide
  obtain ⟨request, hrequest, htrigger, -⟩ := hcalls _ _ hnew _ _ hnotify
  have hreached : World.Reached ((Hub.new 64).run []).2 [] [duet] duetMoment :=
    (World.Reached.staged.planned (List.mem_singleton.2 rfl)).runFor 6 [0, 1]
  exact ⟨hnew, hnotify, ⟨request, hrequest, htrigger⟩, by decide +kernel,
    ((hmoments _ _ _ _).2 _ hreached).2.1⟩

end Custody
