import Custody.Proofs.Ceremony.Errors
import Custody.Proofs.Ceremony.Trigger
import Custody.Proofs.Rehearsal.Accounts
import Custody.Rehearsal.Network
/-!
# The errors of calls that are played

Whatever goes on around it, a call that is played is told what some course of its ceremony tells,
or that its time is up (`World.Reached.told`). So the errors of calls are those of courses, in every
rehearsal (`error_taxonomy`).

* `Network.refuses_of_attachment`: a broker behind an address refuses as a client of sockets does.
* `World.outcomes`: the calls of a piece, each with what it has come to.
-/

namespace Custody

open Ceremony

namespace Rehearsal

/-- What a client is told who cannot subscribe over a network is what some peer would have told. -/
theorem Network.refuses_of_attachment {network : Network} {client : Client.SocketBroker}
    {key : ChannelKey} {e : Error} (h : network.attachment client key = .refused e) :
    (Carrier.sockets client).Refuses e := by
  unfold Network.attachment at h
  cases htarget : client.target key with
  | error fault =>
    rw [htarget] at h
    obtain rfl := Attachment.refused.inj h
    exact .sockets ⟨"", none, []⟩ key (by simp only [Client.SocketBroker.subscribe, htarget])
  | ok target =>
    simp only [htarget] at h
    split at h
    · next hhost =>
      obtain rfl := Attachment.refused.inj h
      exact .sockets ⟨network.brokerHost, none, []⟩ key
        (by simp only [Client.SocketBroker.subscribe, htarget, if_pos hhost])
    · split at h
      · next response _ =>
        obtain rfl := Attachment.refused.inj h
        refine .sockets ⟨target.host, some response.status, []⟩ key ?_
        simp only [Client.SocketBroker.subscribe, htarget, ne_eq, not_true_eq_false, if_false]
      · split at h <;> cases h

namespace World

variable {w : World} {pieces : List Piece}

/-- The calls of a piece, each with what it comes to. -/
def outcomes (w : World) (piece : Piece) : List (Call × Played) :=
  piece.calls.zip ({ w with cluster := piece.cluster, broker := piece.broker }.playTogether
    piece.coordinator.config piece.calls).1

/-- The tasks that are planned together are known from then on. -/
theorem perm_known_schedules (w : World) (tasks : List Task) :
    (tasks.foldl (fun w task => w.schedule w.now (.launch task)) w).known.Perm
      (tasks ++ w.known) := by
  induction tasks generalizing w with
  | nil => exact .rfl
  | cons task rest ih =>
    exact (ih _).trans (((perm_known_launch w task).append_left rest).trans List.perm_middle)

/-- **A call is refused at once**, or it has a task, and comes to what that comes to. -/
theorem outcomes_cases {piece : Piece} {told : Call × Played} (h : told ∈ w.outcomes piece) :
    (∃ e, told.1.accept w.clock (w.now * Config.milli) piece.coordinator.config = .error e ∧
      told.2.result = .error e) ∨
    ∃ id request, told.1.accept w.clock (w.now * Config.milli) piece.coordinator.config =
        .ok request ∧
      taskOf piece.coordinator.config id told.1 request ∈ (w.perform piece).known ∧
      told.2 = (w.perform piece).played told.1 id w.now := by
  obtain ⟨fuel, ids, hperform⟩ := w.perform_eq piece
  -- the calls are numbered, and the answers follow the numbers
  have hzip (calls : List Call) (first : Nat) (answer : Call × Nat → Played) :
      calls.zip ((calls.zipIdx first).map answer) =
        (calls.zipIdx first).map fun numbered => (numbered.1, answer numbered) := by
    induction calls generalizing first with
    | nil => rfl
    | cons call rest ih => simp [List.zipIdx_cons, ih]
  rw [outcomes, playTogether, List.map_map, hzip] at h
  obtain ⟨⟨call, id⟩, hnumbered, rfl⟩ := List.mem_map.1 h
  simp only [Function.comp_apply]
  cases haccept : call.accept w.clock (w.now * Config.milli) piece.coordinator.config with
  | error e => exact .inl ⟨e, rfl, rfl⟩
  | ok request =>
    refine .inr ⟨id, request, rfl, ?_, rfl⟩
    rw [hperform, known_runFor]
    refine (perm_known_schedules _ _).mem_iff.2 (List.mem_append_left _ ?_)
    refine List.mem_filterMap.2 ⟨(call, id), hnumbered, ?_⟩
    simp only [World.task?, haccept]
    rfl

theorem exists_run_of_ending? {id time : Nat} {outcome : Outcome}
    (h : w.ending? id = some (outcome, time)) :
    ∃ run, w.fleet.run? id = some run ∧ run.phase = .finished outcome := by
  unfold ending? at h
  split at h
  · next ending end_ hrun _ =>
    obtain ⟨run, hfound, hphase⟩ := Option.bind_eq_some_iff.1 hrun
    obtain ⟨rfl, -⟩ := Prod.mk.inj (Option.some.inj h)
    exact ⟨run, hfound, Phase.outcome?_eq_some_iff.1 hphase⟩
  · cases h

/-- A run with the number of a task is that of the task. -/
theorem Accounts.ceremony_eq (h : w.Accounts pieces) {task : Task} (htask : task ∈ w.known)
    {run : Run} (hrun : w.fleet.run? task.id = some run) : run.ceremony = task.ceremony := by
  have hname : (run.id, run.ceremony) ∈ w.fleet.names :=
    List.mem_map_of_mem (Fleet.mem_of_run? hrun)
  rw [h.names] at hname
  obtain ⟨started, hstarted, hsame⟩ := List.mem_map.1 hname
  obtain ⟨hid, hceremony⟩ := Prod.mk.inj hsame
  rw [← hceremony, List.inj_on_of_nodup_map h.nodup (List.mem_append_left _ hstarted) htask
    (hid.trans (Fleet.id_of_run? hrun))]

/-- **What a call comes to** is what a course of its ceremony tells, or its time is up. -/
theorem Accounts.played (h : w.Accounts pieces) {config : Config} {call : Call} {id : Nat}
    {request : ActionRequest} (hr : call.request config = .ok request)
    (htask : taskOf config id call request ∈ w.known) (start : Nat) :
    (∃ events, (∀ e, .attachFailed e ∈ events → IsRefusal pieces e) ∧
      call.told? config events = some (w.played call id start).result) ∨
    (w.played call id start).result = .error (.timeout call.channel.name) := by
  unfold World.played
  split
  · next result time hending =>
    obtain ⟨run, hrun, hphase⟩ := exists_run_of_ending? hending
    obtain ⟨events, hevents, hcourse⟩ := h.courses run (Fleet.mem_of_run? hrun)
    have hceremony : run.ceremony = call.ceremony config := h.ceremony_eq htask hrun
    refine .inl ⟨events, hevents, ?_⟩
    rw [hceremony, hphase] at hcourse
    rw [Call.told?, Call.course_of_request hr, hcourse]
  · exact .inr rfl

/-- **Every call is told what a course of its ceremony tells**, or that its time is up. -/
theorem Reached.told {hub : Hub} {frames : List (Nat × List Outside)} (hs : hub.Sound)
    (h : Reached hub frames pieces w) {piece : Piece} (hpiece : piece ∈ pieces)
    {told : Call × Played} (htold : told ∈ w.outcomes piece) :
    (∃ events, (∀ e, .attachFailed e ∈ events → IsRefusal pieces e) ∧
      told.1.toldAt w.clock (w.now * Config.milli) piece.coordinator.config events =
        some told.2.result) ∨
    ¬ told.1.HasBadDigest ∧ told.2.result = .error (.timeout told.1.channel.name) := by
  rcases outcomes_cases htold with ⟨e, haccept, hresult⟩ | ⟨id, request, haccept, htask, hplayed⟩
  · exact .inl ⟨[], nofun, by rw [Call.toldAt, haccept, hresult]⟩
  · obtain ⟨fuel, ids, hperform⟩ := w.perform_eq piece
    have hend : Reached hub frames pieces (w.perform piece) :=
      hperform ▸ (h.planned hpiece).runFor fuel ids
    rw [hplayed]
    rcases (hend.accounts hs).played (request_of_accept haccept) htask w.now with
      ⟨events, hevents, hresult⟩ | hresult
    · exact .inl ⟨events, hevents, by rw [Call.toldAt, haccept, hresult]⟩
    · refine .inr ⟨fun hbad => ?_, hresult⟩
      obtain ⟨reason, hrefused⟩ := hbad.accept w.clock (w.now * Config.milli)
        piece.coordinator.config
      rw [haccept] at hrefused
      cases hrefused

/-- What is reached stays so where more may be played. -/
theorem Reached.mono {hub : Hub} {frames : List (Nat × List Outside)} {more : List Piece}
    (h : Reached hub frames pieces w) (hsub : pieces ⊆ more) : Reached hub frames more w := by
  induction h with
  | staged => exact .staged
  | planned _ hpiece ih => exact ih.planned (hsub hpiece)
  | step _ hs ih => exact ih.step hs

/-- **A call over a network** is told what a course of its ceremony tells, or that its time is
up. -/
theorem Reached.told_playOver {hub : Hub} {frames : List (Nat × List Outside)} (hs : hub.Sound)
    (h : Reached hub frames pieces w) (network : Network) (controlPlane broker : String)
    (coordinator : Coordinator) (call : Call) :
    (∃ events, call.toldAt w.clock (w.now * Config.milli) coordinator.config events =
      some (w.playOver network controlPlane broker coordinator.config call).1.result) ∨
    (w.playOver network controlPlane broker coordinator.config call).1.result =
      .error (.timeout call.channel.name) := by
  let piece : Piece :=
    ⟨network.cluster (.ofUrl controlPlane), network.broker (.ofUrl broker) call.channel,
      coordinator, [call]⟩
  have htold : (call, (w.playOver network controlPlane broker coordinator.config call).1) ∈
      w.outcomes piece := by
    simp [outcomes, piece, playOver, play, playTogether]
  rcases (h.mono (List.subset_cons_self piece pieces)).told hs List.mem_cons_self htold with
    ⟨events, -, hresult⟩ | ⟨-, hresult⟩
  · exact .inl ⟨events, hresult⟩
  · exact .inr hresult

end World

end Rehearsal

/-! ## The errors -/

open Rehearsal in
/-- **The errors of calls.** The hub takes the channel of every session. Whatever the control plane
answers, whatever the carrier of results brings and whenever that happens, a call of a coordinator
is told nothing but what calls may tell (`Call.MayTell`): creating a wallet fails with a failed
trigger, an error of the broker, a closed channel or a timeout; signing fails with one of these
too, or, exactly where the digest has a wrong length, with an invalid configuration; and only one
who asks for a signature that recovers is told that it is malformed or does not recover, once a
complete result has been received. Over the hub itself there are no errors of the broker. A
ceremony gives a result of its own purpose.

All this holds of whatever is played on the way of a rehearsal: each call is told what some course
tells, or that its time is up. A broker that is known by an address refuses as sockets do. -/
theorem error_taxonomy :
    (∀ (hub : Hub) (key : ChannelKey), ∃ attached, hub.subscribe key.name = .ok attached) ∧
    (∀ config coordinator, Coordinator.ofConfig config = .ok coordinator →
      ∀ (carrier : Carrier) (clock : Clock) (now : Nat), now + Config.maxTimeout ≤ clock.last →
        ∀ (call : Call) (events : List Event), (∀ e, .attachFailed e ∈ events → carrier.Refuses e) →
          (∀ result, call.toldAt clock now config events = some result →
            call.MayTell carrier (call.Receives config events) result) ∧
          (call.HasBadDigest → ∃ reason, call.toldAt clock now config events =
            some (.error (.invalidConfig reason))) ∧
          ∀ result, (call.course config events).1 = .finished (.returned (.ok result)) →
            result.purpose = call.purpose) ∧
    (∀ (network : Network) client key e, network.attachment client key = .refused e →
      (Carrier.sockets client).Refuses e) ∧
    ∀ capacity earlier frames pieces (carrier : Carrier),
      (∀ piece ∈ pieces, ∀ e, piece.broker.attachment = .refused e → carrier.Refuses e) →
      ∀ w, World.Reached ((Hub.new capacity).run earlier).2 frames pieces w →
        (∀ run ∈ w.fleet.runs, ∀ result, run.phase = .finished (.returned (.ok result)) →
          result.purpose = run.ceremony.channel.purpose) ∧
        (w.now * Config.milli + Config.maxTimeout ≤ w.clock.last →
          ∀ piece ∈ pieces, ∀ told ∈ w.outcomes piece, ∃ events,
            (∀ e, .attachFailed e ∈ events → carrier.Refuses e) ∧
            (told.1.toldAt w.clock (w.now * Config.milli) piece.coordinator.config events =
                some told.2.result ∨ told.2.result = .error (.timeout told.1.channel.name)) ∧
            told.1.MayTell carrier (told.1.Receives piece.coordinator.config events)
              told.2.result) := by
  refine ⟨fun hub key => ⟨_, (hub.exists_subscribe key.valid_name).choose_spec⟩,
    fun config coordinator hnew carrier clock now hclock call events hevents => ?_,
    fun network client key e => Network.refuses_of_attachment,
    fun capacity earlier frames pieces carrier hbrokers w hreached => ?_⟩
  · obtain rfl := Coordinator.config_of_ofConfig hnew
    exact ⟨fun result => Call.mayTell_of_toldAt coordinator.valid hclock hevents,
      Call.toldAt_of_hasBadDigest, fun result => Call.purpose_of_course⟩
  · have hsound := Hub.sound_run (Hub.sound_new capacity) earlier
    have hrefuses {e : Error} : World.IsRefusal pieces e → carrier.Refuses e :=
      fun ⟨piece, hpiece, he⟩ => hbrokers piece hpiece e he
    refine ⟨fun run hrun result hphase => ?_, fun hclock piece hpiece told htold => ?_⟩
    · obtain ⟨events, -, hcourse⟩ := (hreached.accounts hsound).courses run hrun
      exact purpose_of_returned (outcome?_start _) (hcourse.trans hphase)
    · rcases hreached.told hsound hpiece htold with ⟨events, hevents, htells⟩ | ⟨hgood, htime⟩
      · have hallowed := fun e he => hrefuses (hevents e he)
        exact ⟨events, hallowed, .inl htells,
          Call.mayTell_of_toldAt piece.coordinator.valid hclock hallowed htells⟩
      · refine ⟨[], nofun, .inr htime, ?_⟩
        rw [htime]
        exact .of_mem hgood (by simp [Error.kind])

/-- The call that signs a digest in the session `s3` for an address that no key has. -/
def Call.strayedSigning : Call :=
  .sign ⟨"s3", by decide, by decide, by decide⟩ [0x73, 0x68] (List.replicate 32 7) "0x00"

/-- The carrier of the service at the address `http://broker`. -/
def Carrier.distant : Carrier :=
  .sockets (.ofUrl "http://broker")

/-- Two calls at a time over a hub, one of them with an empty digest, with a control plane that
cannot be reached. -/
def Rehearsal.outage : Piece where
  cluster := .scripted (some 7) (some (.transport "connection refused")) fun _ => []
  broker := .prompt
  coordinator := .standard
  calls := [.firstWallet, .signRaw ⟨"s4", by decide, by decide, by decide⟩ [0x73, 0x68] []]

open Rehearsal in
/-- A signature that is no encoded pair, a socket that is refused, and calls during an outage. -/
theorem error_taxonomy_of_outage :
    Call.strayedSigning.MayTell .distant (Call.strayedSigning.Receives .standard
        [.acknowledged, .attached, .message "\x7b\"signature\":\"c2ln\"\x7d"])
      (.error (.malformedSignature "signature error")) ∧
    Call.strayedSigning.MayTell .distant (Call.strayedSigning.Receives .standard
        [.acknowledged, .attachFailed (Client.SocketBroker.refused 503)])
      (.error (Client.SocketBroker.refused 503)) ∧
    ((World.staged .standard []).outcomes outage).map (·.2.result) =
      [.error (.triggerFailed
          "InitKeygen for session s1: Transport error: connection refused"),
        .error (.invalidConfig "Message hash must be 32 bytes, got 0")] ∧
    ∀ told ∈ (World.staged .standard []).outcomes outage, ∃ events,
      told.1.MayTell .memory (told.1.Receives .standard events) told.2.result := by
  obtain ⟨-, hcalls, -, hplayed⟩ := error_taxonomy
  have hnew : Coordinator.ofConfig .standard = .ok .standard := rfl
  have hclock : 0 + Config.maxTimeout ≤ Clock.standard.last := by decide +kernel
  refine ⟨?_, ?_, by decide +kernel, fun told htold => ?_⟩
  · exact (hcalls _ _ hnew .distant _ _ hclock _ _ (by simp)).1 _ (by decide +kernel)
  · refine (hcalls _ _ hnew .distant _ _ hclock _ _ ?_).1 _ (by decide +kernel)
    intro e he
    obtain rfl : e = Client.SocketBroker.refused 503 := by simpa using he
    exact .sockets ⟨"broker", some 503, []⟩ Call.strayedSigning.channel (by decide +kernel)
  · have hprompt : ∀ piece ∈ [outage], ∀ e, piece.broker.attachment = .refused e →
        Carrier.memory.Refuses e := by
      simp [outage, Broker.prompt]
    obtain ⟨events, -, -, htells⟩ := (hplayed 64 [] [] _ .memory hprompt _ .staged).2
      (by decide +kernel) outage (List.mem_singleton.2 rfl) told htold
    exact ⟨events, htells⟩

end Custody
