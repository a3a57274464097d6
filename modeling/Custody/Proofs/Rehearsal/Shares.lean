import Custody.Proofs.Ceremony.Shares
import Custody.Proofs.Rehearsal.Accounts
import Custody.Proofs.Rehearsal.Deadline
import Custody.Rehearsal.Network
/-!
# Rehearsals do not tell shares apart

A world can be told without the shares in it (`World.erased`). If the cluster does not look at
shares, then what happens next does not either (`World.step?_erased`), and so nothing that is played
does: two calls that differ in their shares come to the same at the same time, and leave worlds
behind that differ in shares alone (`World.play_withShare`). Over a network nobody looks at shares
(`Network.ignoresShares`, `World.playOver_withShare`).
-/

namespace Custody

open Ceremony

namespace Rehearsal

/-- The cluster does the same about requests that differ in their shares. -/
def Cluster.IgnoresShares (cluster : Cluster) : Prop :=
  ∀ (request : ActionRequest) (share : Bytes),
    cluster.script (request.withShare share) = cluster.script request ∧
      cluster.response (request.withShare share) = cluster.response request

/-- The task without the share that it sends. -/
def Task.erased (task : Task) : Task :=
  { task with request := task.request.map (·.withShare []) }

/-- What happens, without the share that is sent then. -/
def Occurrence.erased : Occurrence → Occurrence
  | launch task => launch task.erased
  | input i => input i

/-- An agenda without the shares that are sent then. -/
def eraseAgenda (agenda : List (Nat × Occurrence)) : List (Nat × Occurrence) :=
  agenda.map fun item => (item.1, item.2.erased)

namespace World

/-- The world without the shares in it. -/
def erased (w : World) : World :=
  { w with
    agenda := eraseAgenda w.agenda
    tasks := w.tasks.map Task.erased
    requests := w.requests.map (·.withShare []) }

/-! ## Agendas -/

@[simp] theorem isDeadline_erased (o : Occurrence) : o.erased.isDeadline = o.isDeadline := by
  cases o <;> rfl

theorem join?_erased (first other : Occurrence) :
    join? first.erased other.erased = (join? first other).map Occurrence.erased := by
  unfold join?
  cases first with
  | launch task => rfl
  | input input =>
    cases other with
    | launch task => cases input <;> rfl
    | input other => cases input <;> cases other <;> rfl

theorem insert_erased (time : Nat) (o : Occurrence) (agenda : List (Nat × Occurrence)) :
    insert time o.erased (eraseAgenda agenda) = eraseAgenda (insert time o agenda) := by
  induction agenda with
  | nil => rfl
  | cons item rest ih =>
    obtain ⟨t, first⟩ := item
    have hbefore : comesBefore time o.erased t first.erased = comesBefore time o t first := by
      rw [comesBefore, comesBefore, isDeadline_erased, isDeadline_erased]
    have hjoin : (if time = t then join? first.erased o.erased else none) =
        (if time = t then join? first o else none).map Occurrence.erased := by
      split
      · exact join?_erased first o
      · rfl
    rw [eraseAgenda, List.map_cons, ← eraseAgenda, insert, insert, hbefore, hjoin, ih]
    split
    · rfl
    · cases (if time = t then join? first o else none) <;> rfl

theorem schedule_erased (w : World) (time : Nat) (o : Occurrence) :
    w.erased.schedule time o.erased = (w.schedule time o).erased := by
  simp only [schedule, erased, insert_erased]

theorem after_erased (w : World) (delay : Nat) (o : Occurrence) :
    w.erased.after delay o.erased = (w.after delay o).erased := by
  unfold after
  split
  · rfl
  · exact w.schedule_erased ..

theorem answer_erased (w : World) (delay : Option Nat) (input : Fleet.Input) :
    w.erased.answer delay input = (w.answer delay input).erased := by
  cases delay with
  | none => rfl
  | some delay => exact w.after_erased delay (.input input)

theorem follow_erased (w : World) (script : List (Nat × List Outside)) :
    w.erased.follow script = (w.follow script).erased := by
  induction script generalizing w with
  | nil => rfl
  | cons burst rest ih =>
    exact (congrArg (follow · rest) (w.after_erased burst.1 (.input (.outside burst.2)))).trans
      (ih _)

/-! ## Launches -/

/-- The world in which a task has been started, before what it asks for at once is done. -/
def begun (w : World) (task : Task) : World :=
  let w := { w with
    fleet := (w.fleet.launch task.id task.ceremony).2
    tasks := w.tasks ++ [task] }
  let w := w.schedule (w.now + task.timeout) (.input (.event task.id .deadline))
  match task.cancel with
  | none => w
  | some time => w.schedule (w.now + time) (.input (.event task.id .cancelled))

theorem happen_launch (w : World) (task : Task) :
    w.happen (.launch task) =
      (task.ceremony.start.2.map (task.id, ·)).foldl serve (w.begun task) := by
  rw [List.foldl_map]
  rfl

theorem begun_erased (w : World) (task : Task) :
    w.erased.begun task.erased = (w.begun task).erased := by
  let started : World := { w with
    fleet := (w.fleet.launch task.id task.ceremony).2
    tasks := w.tasks ++ [task] }
  let timed := started.schedule (w.now + task.timeout) (.input (.event task.id .deadline))
  have hstarted : ({ w.erased with
      fleet := (w.fleet.launch task.id task.ceremony).2
      tasks := w.erased.tasks ++ [task.erased] } : World) = started.erased := by
    simp [started, erased]
  have htimed : ({ w.erased with
      fleet := (w.fleet.launch task.id task.ceremony).2
      tasks := w.erased.tasks ++ [task.erased] } : World).schedule (w.now + task.timeout)
        (.input (.event task.id .deadline)) = timed.erased := by
    rw [hstarted]
    exact started.schedule_erased _ (.input _)
  unfold begun
  rw [show task.erased.cancel = task.cancel from rfl]
  cases task.cancel with
  | none => exact htimed
  | some time =>
    exact (congrArg (schedule · (w.now + time) (.input (.event task.id .cancelled))) htimed).trans
      (timed.schedule_erased _ (.input _))

/-! ## Clusters -/

theorem cluster_after (w : World) (delay : Nat) (o : Occurrence) :
    (w.after delay o).cluster = w.cluster := by
  unfold after
  split <;> rfl

theorem cluster_answer (w : World) (delay : Option Nat) (input : Fleet.Input) :
    (w.answer delay input).cluster = w.cluster := by
  cases delay with
  | none => rfl
  | some delay => exact w.cluster_after ..

theorem cluster_follow (w : World) (script : List (Nat × List Outside)) :
    (w.follow script).cluster = w.cluster := by
  induction script generalizing w with
  | nil => rfl
  | cons burst rest ih => exact (ih _).trans (w.cluster_after ..)

theorem cluster_notify (w : World) (id : Nat) (request : ActionRequest) :
    (w.notify id request).cluster = w.cluster :=
  (cluster_follow ..).trans (cluster_answer ..)

theorem cluster_serve (w : World) (effect : Nat × Effect) :
    (w.serve effect).cluster = w.cluster := by
  obtain ⟨id, effect⟩ := effect
  cases effect with
  | notify =>
    rw [serve]
    split
    · rfl
    · exact w.cluster_notify ..
  | subscribe => exact w.cluster_answer ..
  | release => rfl

theorem cluster_serveAll (w : World) (effects : List (Nat × Effect)) :
    (effects.foldl serve w).cluster = w.cluster := by
  induction effects generalizing w with
  | nil => rfl
  | cons effect rest ih => exact (ih _).trans (w.cluster_serve effect)

/-- The cluster stays what it is, whatever happens. -/
theorem cluster_happen (w : World) (o : Occurrence) : (w.happen o).cluster = w.cluster := by
  cases o with
  | launch task =>
    rw [happen_launch, cluster_serveAll, begun]
    cases task.cancel <;> rfl
  | input input => exact cluster_serveAll ..

theorem cluster_step? {w w' : World} (h : w.step? = some w') : w'.cluster = w.cluster := by
  rcases step?_cases h with ⟨time, o, rest, -, rfl⟩ | ⟨due, r, others, -, rfl⟩
  · exact cluster_happen ..
  · unfold respond
    split <;> rfl

/-! ## Steps -/

variable {w : World}

theorem notify_erased (h : w.cluster.IgnoresShares) (id : Nat) (request : ActionRequest) :
    w.erased.notify id (request.withShare []) = (w.notify id request).erased := by
  obtain ⟨hscript, hresponse⟩ := h request []
  simp only [notify]
  rw [← follow_erased, ← answer_erased, cluster_answer, cluster_answer,
    show w.erased.cluster.response (request.withShare []) = w.cluster.response request from
      hresponse,
    show w.erased.cluster.script (request.withShare []) = w.cluster.script request from hscript]
  simp only [erased, List.map_append, List.map_cons, List.map_nil]
  rfl

theorem serve_erased (h : w.cluster.IgnoresShares) (effect : Nat × Effect) :
    w.erased.serve effect = (w.serve effect).erased := by
  obtain ⟨id, effect⟩ := effect
  cases effect with
  | notify =>
    have htask : (w.erased.tasks.find? (·.id == id)).bind Task.request =
        ((w.tasks.find? (·.id == id)).bind Task.request).map (·.withShare []) := by
      rw [erased, List.find?_map]
      change ((w.tasks.find? (·.id == id)).map Task.erased).bind Task.request = _
      cases w.tasks.find? (·.id == id) <;> rfl
    simp only [serve, htask]
    cases (w.tasks.find? (·.id == id)).bind Task.request with
    | none => rfl
    | some request => exact notify_erased h id request
  | subscribe => exact w.answer_erased ..
  | release => rfl

theorem serveAll_erased (h : w.cluster.IgnoresShares) (effects : List (Nat × Effect)) :
    effects.foldl serve w.erased = (effects.foldl serve w).erased := by
  induction effects generalizing w with
  | nil => rfl
  | cons effect rest ih =>
    rw [List.foldl_cons, List.foldl_cons, serve_erased h]
    exact ih ((w.cluster_serve effect).symm ▸ h)

/-- **What happens** does not depend on shares. -/
theorem happen_erased (h : w.cluster.IgnoresShares) (o : Occurrence) :
    w.erased.happen o.erased = (w.happen o).erased := by
  cases o with
  | launch task =>
    rw [Occurrence.erased, happen_launch, happen_launch, begun_erased]
    have hcluster : (w.begun task).cluster = w.cluster := by
      rw [begun]
      cases task.cancel <;> rfl
    exact serveAll_erased (hcluster.symm ▸ h) _
  | input input =>
    exact congrArg note (serveAll_erased (w := { w with
      fleet := (w.fleet.step input).2
      log := w.log ++ (w.fleet.step input).1.answers }) h (w.fleet.step input).1.effects)

/-! ## Responders -/

theorem firstDue_erased (w : World) (responders : List Responder) :
    w.erased.firstDue responders = w.firstDue responders := by
  induction responders with
  | nil => rfl
  | cons r rest ih => rw [firstDue, firstDue, ih, show w.erased.due? r = w.due? r from rfl]

theorem respond_erased (w : World) (time : Nat) (r : Responder) (others : List Responder) :
    w.erased.respond time r others = (w.respond time r others).erased := by
  unfold respond
  split <;> rfl

/-! ## Runs -/

/-- **The next step** does not depend on shares. -/
theorem step?_erased (h : w.cluster.IgnoresShares) :
    w.erased.step? = w.step?.map erased := by
  have hhappen (time : Nat) (o : Occurrence) (rest : List (Nat × Occurrence)) :
      ({ w.erased with now := time, agenda := eraseAgenda rest } : World).happen o.erased =
        (({ w with now := time, agenda := rest } : World).happen o).erased :=
    happen_erased (w := { w with now := time, agenda := rest }) h o
  unfold step?
  rw [show w.erased.responders = w.responders from rfl, firstDue_erased,
    show w.erased.agenda = eraseAgenda w.agenda from rfl]
  cases w.agenda with
  | nil =>
    cases w.firstDue w.responders with
    | none => rfl
    | some found => exact congrArg some (w.respond_erased ..)
  | cons item rest =>
    cases w.firstDue w.responders with
    | none => exact congrArg some (hhappen ..)
    | some found =>
      obtain ⟨due, r, others⟩ := found
      simp only [eraseAgenda, List.map_cons]
      split
      · exact congrArg some (w.respond_erased ..)
      · exact congrArg some (hhappen ..)

/-- **All that follows** does not depend on shares. -/
theorem runFor_erased (h : w.cluster.IgnoresShares) (fuel : Nat) (ids : List Nat) :
    runFor fuel w.erased ids = (runFor fuel w ids).erased := by
  induction fuel generalizing w with
  | zero =>
    unfold runFor
    rw [show w.erased.areOver ids = w.areOver ids from rfl]
    split <;> rfl
  | succ fuel ih =>
    unfold runFor
    rw [show w.erased.areOver ids = w.areOver ids from rfl, step?_erased h]
    split
    · rfl
    · cases hs : w.step? with
      | none => rfl
      | some w' => exact ih ((cluster_step? hs).symm ▸ h)

theorem cost_erased (h : w.cluster.IgnoresShares) (task : Task) :
    w.erased.cost task.erased = w.cost task := by
  unfold cost
  cases hrequest : task.request with
  | none => simp [Task.erased, hrequest]
  | some request =>
    simp only [Task.erased, hrequest, Option.map_some]
    rw [show w.erased.cluster = w.cluster from rfl, (h request []).1]

/-- A task is run alike whatever share it sends. -/
theorem run_erased (h : w.cluster.IgnoresShares) (task : Task) :
    w.erased.run [task.erased] = (w.run [task]).erased := by
  have hlength : w.erased.agenda.length = w.agenda.length := by simp [erased, eraseAgenda]
  have hscheduled : w.erased.schedule w.now (.launch task.erased) =
      (w.schedule w.now (.launch task)).erased :=
    w.schedule_erased w.now (.launch task)
  simp only [run, List.foldl_cons, List.foldl_nil, List.map_cons, List.map_nil, cost_erased h,
    hlength]
  rw [show w.erased.now = w.now from rfl, hscheduled]
  exact runFor_erased (w := w.schedule w.now (.launch task)) h _ _

/-! ## Calls -/

/-- A call that is accepted is run as a task. -/
theorem play_eq_run {config : Config} {call : Call} {request : ActionRequest}
    (h : call.accept w.clock (w.now * Config.milli) config = .ok request) :
    w.play config call =
      let after := ({ w with next := w.next + 1 } : World).run [taskOf config w.next call request]
      (after.played call w.next w.now, after) := by
  simp [play, playTogether, h, Except.toOption]

theorem taskOf_erased (config : Config) (id : Nat) (call : Call) (request : ActionRequest)
    (share : Bytes) :
    (taskOf config id (call.withShare share) (request.withShare share)).erased =
      (taskOf config id call request).erased := by
  simp only [taskOf, Task.erased, Call.ceremony_withShare, Option.map_some,
    ActionRequest.withShare_withShare]

/-- **Two calls that differ in their shares** come to the same in the same time, and leave worlds
behind that differ in shares alone. -/
theorem play_withShare (h : w.cluster.IgnoresShares) (config : Config) (call : Call)
    (share : Bytes) :
    (w.play config (call.withShare share)).1 = (w.play config call).1 ∧
      (w.play config (call.withShare share)).2.erased = (w.play config call).2.erased := by
  have haccept := call.accept_withShare share config w.clock (w.now * Config.milli)
  cases hrequest : call.accept w.clock (w.now * Config.milli) config with
  | error e =>
    rw [hrequest] at haccept
    rw [play_of_error hrequest, play_of_error haccept]
    exact ⟨rfl, rfl⟩
  | ok request =>
    rw [hrequest] at haccept
    rw [play_eq_run hrequest, play_eq_run haccept]
    have hworlds : (({ w with next := w.next + 1 } : World).run
        [taskOf config w.next (call.withShare share) (request.withShare share)]).erased =
          (({ w with next := w.next + 1 } : World).run
            [taskOf config w.next call request]).erased := by
      rw [← run_erased (w := { w with next := w.next + 1 }) h,
        ← run_erased (w := { w with next := w.next + 1 }) h, taskOf_erased]
    refine ⟨?_, hworlds⟩
    -- what a call has come to is read off a world without its shares
    have hplayed (w : World) (call : Call) (id start : Nat) :
        w.erased.played call id start = w.played call id start := rfl
    have hcalls (w : World) (id start : Nat) :
        w.played (call.withShare share) id start = w.played call id start := by
      rw [played, played, Call.conclude_withShare, Call.channel_withShare]
    dsimp only
    rw [hcalls, ← hplayed, hworlds, hplayed]

end World

/-- A control plane in a network does the same about requests that differ in their shares. -/
theorem Network.ignoresShares (network : Network) (client : Client.ControlPlane) :
    (network.cluster client).IgnoresShares :=
  fun _ _ => ⟨rfl, rfl⟩

/-- **So it is with calls over a network.** -/
theorem World.playOver_withShare (w : World) (network : Network) (controlPlane broker : String)
    (config : Config) (call : Call) (share : Bytes) :
    (w.playOver network controlPlane broker config (call.withShare share)).1 =
        (w.playOver network controlPlane broker config call).1 ∧
      (w.playOver network controlPlane broker config (call.withShare share)).2.erased =
        (w.playOver network controlPlane broker config call).2.erased := by
  obtain ⟨hplayed, hworlds⟩ := World.play_withShare (w := { w with
    cluster := network.cluster (.ofUrl controlPlane)
    broker := network.broker (.ofUrl broker) call.channel }) (network.ignoresShares _) config call
      share
  unfold playOver
  rw [Call.channel_withShare]
  refine ⟨hplayed, ?_⟩
  dsimp only
  split
  · exact hworlds
  · exact congrArg (fun after : World => { after with requests := w.erased.requests }) hworlds

end Rehearsal

end Custody
