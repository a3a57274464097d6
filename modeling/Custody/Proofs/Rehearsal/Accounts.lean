import Custody.Proofs.Fleet.Inputs
import Custody.Proofs.Rehearsal.Launch
import Custody.Proofs.Wallet.Basic
/-!
# Rehearsals of many calls

Calls of coordinators are played together and one after the other, against clusters and brokers that
may change between them (`Piece`, `World.Reached`). At every moment all that goes on in the world is
the matter of one of the calls (`World.Accounts`, `World.Reached.accounts`): each run has a task of
its own, each task is that of a call which has passed its check, nothing is sent but what a task
sends, and each run is where a course of its ceremony leads to.

* `World.perform` plays a piece to its end, and `World.Reached.performAll` says that such ends are
  moments.
-/

namespace Custody

open Ceremony

namespace Rehearsal

/-- Calls of one coordinator that are played together, against a cluster and a broker. -/
structure Piece where
  cluster : Cluster
  broker : Broker
  coordinator : Coordinator
  calls : List Call

/-- The task is that of a call of one of the pieces. -/
def IsTaskOf (pieces : List Piece) (task : Task) : Prop :=
  ∃ piece ∈ pieces, ∃ call ∈ piece.calls, ∃ request,
    call.request piece.coordinator.config = .ok request ∧
      task = World.taskOf piece.coordinator.config task.id call request

/-- The task that is started. -/
def Occurrence.task? : Occurrence → Option Task
  | launch task => some task
  | input _ => none

/-- The tasks that are still to be started. -/
def launches (agenda : List Item) : List Task :=
  agenda.filterMap fun x => x.2.task?

theorem launches_insert (time : Nat) (input : Fleet.Input) (agenda : List Item) :
    launches (World.insert time (.input input) agenda) = launches agenda := by
  induction agenda with
  | nil => rfl
  | cons x rest ih =>
    obtain ⟨t, first⟩ := x
    rw [World.insert]
    split
    · rfl
    · split
      · next both hjoin =>
        obtain ⟨-, hj⟩ := Option.ite_none_right_eq_some.1 hjoin
        obtain ⟨ops, more, rfl, -, rfl⟩ := World.join?_eq_some_iff.1 hj
        rfl
      · cases first with
        | launch task => exact congrArg (task :: ·) ih
        | input other => exact ih

theorem perm_launches_insert (time : Nat) (task : Task) (agenda : List Item) :
    (launches (World.insert time (.launch task) agenda)).Perm (task :: launches agenda) := by
  obtain ⟨early, late, rfl, hinsert⟩ := World.exists_insert_launch time task agenda
  rw [hinsert]
  simp only [launches, List.filterMap_append]
  exact List.perm_middle

namespace World

/-- The task of a numbered call, if the call is accepted. -/
def task? (w : World) (config : Config) (numbered : Call × Nat) : Option Task :=
  (numbered.1.accept w.clock (w.now * Config.milli) config).toOption.map
    (taskOf config numbered.2 numbered.1)

/-- A world in which the calls of a piece are about to start. -/
def planned (w : World) (piece : Piece) : World :=
  ((piece.calls.zipIdx w.next).filterMap (w.task? piece.coordinator.config)).foldl
    (fun w task => w.schedule w.now (.launch task))
    { w with cluster := piece.cluster, broker := piece.broker, next := w.next + piece.calls.length }

/-- Plays the calls of a piece to their end. -/
def perform (w : World) (piece : Piece) : World :=
  ({ w with cluster := piece.cluster, broker := piece.broker }.playTogether
    piece.coordinator.config piece.calls).2

/-- Plays pieces one after the other. -/
def performAll (w : World) (pieces : List Piece) : World :=
  pieces.foldl perform w

/-- The world over a hub in which no call has been played, and in which others will do this. -/
def staged (hub : Hub) (frames : List (Nat × List Outside)) : World :=
  { World.new hub (.responding none 0 fun _ => none) .prompt with
    agenda := frames.map fun (time, ops) => (time, .input (.outside ops)) }

/-- A moment of a rehearsal of pieces, each of which may start while others go on. -/
inductive Reached (hub : Hub) (frames : List (Nat × List Outside)) (pieces : List Piece) :
    World → Prop
  | staged : Reached hub frames pieces (staged hub frames)
  | planned {w : World} (h : Reached hub frames pieces w) {piece : Piece}
    (hpiece : piece ∈ pieces) : Reached hub frames pieces (w.planned piece)
  | step {w w' : World} (h : Reached hub frames pieces w) (hs : w.step? = some w') :
    Reached hub frames pieces w'

/-- A broker of the pieces refuses subscriptions with this error. -/
def IsRefusal (pieces : List Piece) (e : Error) : Prop :=
  ∃ piece ∈ pieces, piece.broker.attachment = .refused e

/-- What is planned tells of no other refusals. -/
def TellsOnly (allowed : Error → Prop) (x : Item) : Prop :=
  ∀ input, x.2 = .input input → input.Allowed allowed

/-- The tasks that have been started or are still to be. -/
def known (w : World) : List Task :=
  w.tasks ++ launches w.agenda

/-- All that goes on in a world is the matter of a call. -/
structure Accounts (w : World) (pieces : List Piece) : Prop where
  known : ∀ task ∈ w.known, IsTaskOf pieces task
  nodup : (w.known.map Task.id).Nodup
  older : ∀ task ∈ w.known, task.id < w.next
  names : w.fleet.names = w.tasks.map fun task => (task.id, task.ceremony)
  tuned : w.fleet.Tuned
  requests : ∀ request ∈ w.requests, ∃ task ∈ w.tasks, task.request = some request
  responders : ∀ r ∈ w.responders, ∃ request ∈ w.requests, r.channel = channelOf request
  agenda : ∀ x ∈ w.agenda, TellsOnly (IsRefusal pieces) x
  broker : ∀ e, w.broker.attachment = .refused e → IsRefusal pieces e
  courses : w.fleet.OnCourse (IsRefusal pieces)

variable {w : World} {pieces : List Piece}

/-! ## Tasks that are kept -/

theorem known_schedule (w : World) (time : Nat) (input : Fleet.Input) :
    (w.schedule time (.input input)).known = w.known :=
  congrArg (w.tasks ++ ·) (launches_insert ..)

theorem known_after (w : World) (delay : Nat) (input : Fleet.Input) :
    (w.after delay (.input input)).known = w.known := by
  unfold World.after
  split
  · rfl
  · exact w.known_schedule ..

theorem known_answer (w : World) (delay : Option Nat) (input : Fleet.Input) :
    (w.answer delay input).known = w.known := by
  cases delay with
  | none => rfl
  | some delay => exact w.known_after ..

theorem known_follow (w : World) (script : List (Nat × List Outside)) :
    (w.follow script).known = w.known := by
  induction script generalizing w with
  | nil => rfl
  | cons burst rest ih => exact (ih _).trans (w.known_after ..)

theorem known_serve (w : World) (effect : Nat × Effect) : (w.serve effect).known = w.known := by
  obtain ⟨id, effect⟩ := effect
  cases effect with
  | notify =>
    simp only [World.serve]
    split
    · rfl
    · exact (known_follow ..).trans (known_answer ..)
  | subscribe => exact w.known_answer ..
  | release => rfl

theorem known_serveAll (w : World) (effects : List (Nat × Effect)) :
    (effects.foldl World.serve w).known = w.known := by
  induction effects generalizing w with
  | nil => rfl
  | cons effect rest ih => exact (ih _).trans (w.known_serve effect)

theorem known_input (w : World) (input : Fleet.Input) :
    (w.happen (.input input)).known = w.known :=
  known_serveAll ..

/-- A task that is started has been planned. -/
theorem known_launch {w : World} {time : Nat} {task : Task} {rest : List Item}
    (h : w.agenda = (time, .launch task) :: rest) :
    ({ w with now := time, agenda := rest }.happen (.launch task)).known = w.known := by
  let started : World := { w with
    now := time, agenda := rest, tasks := w.tasks ++ [task]
    fleet := (w.fleet.launch task.id task.ceremony).2 }
  have hstarted : started.known = w.known := by
    rw [World.known, World.known, h, List.append_assoc]
    rfl
  have hplanned : (started.schedule (time + task.timeout)
      (.input (.event task.id .deadline))).known = w.known :=
    (started.known_schedule ..).trans hstarted
  simp only [happen]
  rw [← List.foldl_map, known_serveAll]
  cases task.cancel with
  | none => exact hplanned
  | some given => exact (known_schedule ..).trans hplanned

/-- **What happens next** is the first item of the agenda, or a responder has its turn. -/
theorem step?_cases {w w' : World} (h : w.step? = some w') :
    (∃ time o rest, w.agenda = (time, o) :: rest ∧
      w' = { w with now := time, agenda := rest }.happen o) ∨
    ∃ due r others, w.Picks w.responders due r others ∧ w' = w.respond due r others := by
  unfold World.step? at h
  split at h
  · cases h
  · next ha _ => exact .inl ⟨_, _, _, ha, (Option.some.inj h).symm⟩
  · next hf => exact .inr ⟨_, _, _, picks_of_firstDue hf, (Option.some.inj h).symm⟩
  · next ha hf =>
    split at h
    · exact .inr ⟨_, _, _, picks_of_firstDue hf, (Option.some.inj h).symm⟩
    · exact .inl ⟨_, _, _, ha, (Option.some.inj h).symm⟩

/-- **No task is forgotten, and none comes up by itself.** -/
theorem known_step? {w w' : World} (h : w.step? = some w') : w'.known = w.known := by
  rcases step?_cases h with ⟨time, o, rest, ha, rfl⟩ | ⟨due, r, others, -, rfl⟩
  · cases o with
    | launch task => exact known_launch ha
    | input input =>
      refine (known_input ..).trans ?_
      rw [World.known, World.known, ha]
      rfl
  · rcases w.respond_eq due r others with ⟨-, heq⟩ | ⟨log, heq⟩
    · rw [heq]
      rfl
    · rw [heq]
      exact known_input { w with now := due, responders := others }
        (.outside (r.response.ops r.channel))

theorem known_runFor (fuel : Nat) (w : World) (ids : List Nat) :
    (World.runFor fuel w ids).known = w.known := by
  induction fuel generalizing w with
  | zero =>
    unfold World.runFor
    split <;> rfl
  | succ fuel ih =>
    unfold World.runFor
    split
    · rfl
    · cases hs : w.step? with
      | none => rfl
      | some w' => exact (ih w').trans (known_step? hs)

/-! ## What is planned -/

theorem tellsOnly_outside (allowed : Error → Prop) (time : Nat) (ops : List Outside) :
    TellsOnly allowed (time, .input (.outside ops)) := by
  intro input hinput
  exact Occurrence.input.inj hinput ▸ nofun

theorem Accounts.of_agenda (h : w.Accounts pieces) (now : Nat) {agenda : List Item}
    (hl : launches agenda = launches w.agenda)
    (hallowed : ∀ x ∈ agenda, TellsOnly (IsRefusal pieces) x) :
    ({ w with agenda, now } : World).Accounts pieces := by
  have hknown : ({ w with agenda, now } : World).known = w.known := congrArg (w.tasks ++ ·) hl
  exact { h with
    known := hknown ▸ h.known
    nodup := hknown ▸ h.nodup
    older := hknown ▸ h.older
    agenda := hallowed }

theorem Accounts.schedule (h : w.Accounts pieces) (time : Nat) {input : Fleet.Input}
    (hinput : input.Allowed (IsRefusal pieces)) :
    (w.schedule time (.input input)).Accounts pieces := by
  refine h.of_agenda w.now (launches_insert ..) ?_
  refine (adds_insert (Nat.zero_le time)).forall_mem _ (fun _ _ _ _ _ => tellsOnly_outside _ _ _) ?_
  refine List.forall_mem_cons.2 ⟨fun other hother => ?_, h.agenda⟩
  exact Occurrence.input.inj hother ▸ hinput

theorem Accounts.after (h : w.Accounts pieces) (delay : Nat) {input : Fleet.Input}
    (hinput : input.Allowed (IsRefusal pieces)) :
    (w.after delay (.input input)).Accounts pieces := by
  unfold World.after
  split
  · exact h.of_agenda w.now rfl (List.forall_mem_cons.2
      ⟨fun other hother => Occurrence.input.inj hother ▸ hinput, h.agenda⟩)
  · exact h.schedule _ hinput

theorem Accounts.answer (h : w.Accounts pieces) (delay : Option Nat) {input : Fleet.Input}
    (hinput : input.Allowed (IsRefusal pieces)) : (w.answer delay input).Accounts pieces := by
  cases delay with
  | none => exact h
  | some delay => exact h.after delay hinput

theorem Accounts.follow (h : w.Accounts pieces) (script : List (Nat × List Outside)) :
    (w.follow script).Accounts pieces := by
  induction script generalizing w with
  | nil => exact h
  | cons burst rest ih =>
    exact ih (h.after burst.1 (show Fleet.Input.Allowed _ (.outside burst.2) from nofun))

/-- A trigger that is sent is that of a task. -/
theorem Accounts.notify (h : w.Accounts pieces) (id : Nat) {task : Task} (htask : task ∈ w.tasks)
    {request : ActionRequest} (hrequest : task.request = some request) :
    (w.notify id request).Accounts pieces := by
  have hsent : ({ w with
      requests := w.requests ++ [request]
      responders := w.responders ++ ((w.cluster.response request).map
        (Responder.mk (channelOf request) · w.now)).toList } : World).Accounts pieces := by
    refine { h with requests := fun sent hsent => ?_, responders := fun r hr => ?_ }
    · rcases List.mem_append.1 hsent with hsent | hsent
      · exact h.requests sent hsent
      · obtain rfl := List.mem_singleton.1 hsent
        exact ⟨task, htask, hrequest⟩
    · rcases List.mem_append.1 hr with hr | hr
      · obtain ⟨sent, hsent, hchannel⟩ := h.responders r hr
        exact ⟨sent, List.mem_append_left _ hsent, hchannel⟩
      · obtain ⟨response, -, rfl⟩ := Option.map_eq_some_iff.1 (Option.mem_toList.1 hr)
        exact ⟨request, List.mem_append_right _ (List.mem_singleton.2 rfl), rfl⟩
  refine (hsent.answer _ fun number e he => ?_).follow _
  cases hfailure : w.cluster.failure <;> simp [hfailure] at he

theorem Accounts.serve (h : w.Accounts pieces) (effect : Nat × Effect) :
    (w.serve effect).Accounts pieces := by
  obtain ⟨id, effect⟩ := effect
  cases effect with
  | notify =>
    simp only [World.serve]
    cases hrequest : (w.tasks.find? (·.id == id)).bind Task.request with
    | none => exact h
    | some request =>
      obtain ⟨task, htask, hrequest⟩ := Option.bind_eq_some_iff.1 hrequest
      exact h.notify id (List.mem_of_find?_eq_some htask) hrequest
  | subscribe =>
    refine h.answer _ fun number e he => ?_
    cases hattachment : w.broker.attachment with
    | granted => simp [hattachment] at he
    | astray => simp [hattachment] at he
    | refused fault =>
      obtain ⟨-, rfl⟩ : id = number ∧ fault = e := by simpa [hattachment] using he
      exact h.broker fault hattachment
  | release => exact h

theorem Accounts.serveAll (h : w.Accounts pieces) (effects : List (Nat × Effect)) :
    (effects.foldl World.serve w).Accounts pieces := by
  induction effects generalizing w with
  | nil => exact h
  | cons effect rest ih => exact ih (h.serve effect)

theorem Accounts.note (h : w.Accounts pieces) : w.note.Accounts pieces :=
  { h with }

/-! ## What happens -/

theorem Accounts.nodup_tasks (h : w.Accounts pieces) : (w.tasks.map Task.id).Nodup := by
  have hnodup := h.nodup
  rw [World.known, List.map_append] at hnodup
  exact hnodup.of_append_left

theorem Accounts.nodup_runs (h : w.Accounts pieces) : (w.fleet.runs.map Run.id).Nodup := by
  have hids : w.fleet.runs.map Run.id = w.tasks.map Task.id := by
    simpa [Fleet.names, Function.comp_def] using congrArg (List.map Prod.fst) h.names
  exact hids ▸ h.nodup_tasks

theorem Accounts.input (h : w.Accounts pieces) {input : Fleet.Input}
    (hinput : input.Allowed (IsRefusal pieces)) : (w.happen (.input input)).Accounts pieces := by
  have hstep : ({ w with
      fleet := (w.fleet.step input).2
      log := w.log ++ (w.fleet.step input).1.answers } : World).Accounts pieces :=
    { h with
      names := (Fleet.names_step h.nodup_runs input).trans h.names
      tuned := h.tuned.step input
      courses := h.courses.step hinput }
  exact (hstep.serveAll _).note

/-- A task is started. -/
theorem Accounts.launch (h : w.Accounts pieces) {time : Nat} {task : Task} {rest : List Item}
    (ha : w.agenda = (time, .launch task) :: rest) :
    ({ w with now := time, agenda := rest }.happen (.launch task)).Accounts pieces := by
  let started : World := { w with
    now := time, agenda := rest, tasks := w.tasks ++ [task]
    fleet := (w.fleet.launch task.id task.ceremony).2 }
  have hknown : started.known = w.known := by
    rw [World.known, World.known, ha, List.append_assoc]
    rfl
  have hruns {P : Run → Prop} (hold : ∀ run ∈ w.fleet.runs, P run)
      (hnew : P ⟨task.id, task.ceremony, task.ceremony.start.1, none⟩) :
      ∀ run ∈ started.fleet.runs, P run := by
    intro run hrun
    rcases List.mem_append.1 hrun with hrun | hrun
    · exact hold run hrun
    · exact List.mem_singleton.1 hrun ▸ hnew
  have hstarted : started.Accounts pieces := by
    refine { h with
      known := hknown ▸ h.known
      nodup := hknown ▸ h.nodup
      older := hknown ▸ h.older
      names := ?_
      tuned := ⟨h.tuned.id_lt, hruns h.tuned.runs (Run.tuned_of_receiver_eq_none rfl)⟩
      requests := fun request hrequest => ?_
      agenda := fun x hx => h.agenda x (ha ▸ .tail _ hx)
      courses := hruns h.courses ⟨[], nofun, rfl⟩ }
    · have hnames : started.fleet.names = w.fleet.names ++ [(task.id, task.ceremony)] :=
        List.map_append
      have htasks : started.tasks = w.tasks ++ [task] := rfl
      rw [hnames, h.names, htasks, List.map_append]
      rfl
    · obtain ⟨other, hother, hsent⟩ := h.requests request hrequest
      exact ⟨other, List.mem_append_left _ hother, hsent⟩
  have hplanned := hstarted.schedule (time + task.timeout)
    (show Fleet.Input.Allowed _ (.event task.id .deadline) from nofun)
  simp only [happen]
  rw [← List.foldl_map]
  refine Accounts.serveAll ?_ _
  cases task.cancel with
  | none => exact hplanned
  | some given => exact hplanned.schedule _ nofun

theorem Accounts.respond (h : w.Accounts pieces) {time : Nat} {r : Responder}
    {others : List Responder} (ho : ∀ other ∈ others, other ∈ w.responders) :
    (w.respond time r others).Accounts pieces := by
  have hrest : ({ w with responders := others } : World).Accounts pieces :=
    { h with responders := fun other hother => h.responders other (ho other hother) }
  rcases w.respond_eq time r others with ⟨-, heq⟩ | ⟨log, heq⟩
  · exact heq ▸ hrest
  · have hhappen := (hrest.of_agenda time rfl h.agenda).input
      (show Fleet.Input.Allowed _ (.outside (r.response.ops r.channel)) from nofun)
    rw [heq]
    exact { hhappen with }

theorem Accounts.step? (h : w.Accounts pieces) {w' : World} (hs : w.step? = some w') :
    w'.Accounts pieces := by
  rcases step?_cases hs with ⟨time, o, rest, ha, rfl⟩ | ⟨due, r, others, hpicks, rfl⟩
  · cases o with
    | launch task => exact h.launch ha
    | input input =>
      have hallowed := ha ▸ h.agenda
      obtain ⟨hinput, hrest⟩ := List.forall_mem_cons.1 hallowed
      exact (h.of_agenda time (by rw [ha]; rfl) hrest).input (hinput input rfl)
  · exact h.respond hpicks.subset

/-! ## Playing calls -/

/-- A task that is planned is known. -/
theorem perm_known_launch (w : World) (task : Task) :
    (w.schedule w.now (.launch task)).known.Perm (task :: w.known) :=
  ((perm_launches_insert w.now task w.agenda).append_left w.tasks).trans List.perm_middle

theorem Accounts.schedule_launch (h : w.Accounts pieces) {task : Task}
    (htask : IsTaskOf pieces task) (hnew : ∀ other ∈ w.known, other.id ≠ task.id)
    (hlt : task.id < w.next) : (w.schedule w.now (.launch task)).Accounts pieces := by
  have hperm := perm_known_launch w task
  refine { h with
    known := fun other hother => ?_
    nodup := ?_
    older := fun other hother => ?_
    agenda := ?_ }
  · rcases List.mem_cons.1 (hperm.mem_iff.1 hother) with rfl | hold
    · exact htask
    · exact h.known other hold
  · rw [(hperm.map Task.id).nodup_iff, List.map_cons, List.nodup_cons]
    refine ⟨fun hmem => ?_, h.nodup⟩
    obtain ⟨other, hother, hid⟩ := List.mem_map.1 hmem
    exact hnew other hother hid
  · rcases List.mem_cons.1 (hperm.mem_iff.1 hother) with rfl | hold
    · exact hlt
    · exact h.older other hold
  · refine (adds_insert (Nat.zero_le w.now)).forall_mem _
      (fun _ _ _ _ _ => tellsOnly_outside _ _ _) ?_
    exact List.forall_mem_cons.2 ⟨nofun, h.agenda⟩

theorem Accounts.schedule_launches (h : w.Accounts pieces) {tasks : List Task}
    (htasks : ∀ task ∈ tasks, IsTaskOf pieces task) (hd : (tasks.map Task.id).Nodup)
    (hnew : ∀ task ∈ tasks, ∀ other ∈ w.known, other.id ≠ task.id)
    (hlt : ∀ task ∈ tasks, task.id < w.next) :
    (tasks.foldl (fun w task => w.schedule w.now (.launch task)) w).Accounts pieces := by
  induction tasks generalizing w with
  | nil => exact h
  | cons task rest ih =>
    obtain ⟨htask, hrest⟩ := List.forall_mem_cons.1 htasks
    obtain ⟨hfresh, hd⟩ := List.nodup_cons.1 hd
    obtain ⟨hfirst, hnew⟩ := List.forall_mem_cons.1 hnew
    obtain ⟨hnext, hlt⟩ := List.forall_mem_cons.1 hlt
    refine ih (h.schedule_launch htask hfirst hnext) hrest hd
      (fun later hlater other hother => ?_) hlt
    rcases List.mem_cons.1 ((perm_known_launch w task).mem_iff.1 hother) with rfl | hold
    · exact fun he => hfresh (he ▸ List.mem_map_of_mem hlater)
    · exact hnew later hlater other hold

/-- A call that is accepted has passed its own check. -/
theorem request_of_accept {clock : Clock} {now : Nat} {config : Config} {call : Call}
    {request : ActionRequest} (h : call.accept clock now config = .ok request) :
    call.request config = .ok request := by
  unfold Call.accept at h
  obtain ⟨checked, hchecked, h⟩ := Wallet.bind_eq_ok_iff.1 h
  obtain ⟨deadline, -, h⟩ := Wallet.bind_eq_ok_iff.1 h
  rw [hchecked, Except.ok.inj h]

theorem id_of_task? {config : Config} {numbered : Call × Nat} {task : Task}
    (h : w.task? config numbered = some task) : task.id = numbered.2 := by
  obtain ⟨request, -, rfl⟩ := Option.map_eq_some_iff.1 h
  rfl

/-- No two tasks of calls that are played together have one number. -/
theorem ids_sublist (w : World) (config : Config) (calls : List Call) (first : Nat) :
    (((calls.zipIdx first).filterMap (w.task? config)).map Task.id).Sublist
      (List.range' first calls.length) := by
  induction calls generalizing first with
  | nil => exact .slnil
  | cons call rest ih =>
    rw [List.zipIdx_cons, List.length_cons, List.range'_succ, List.filterMap_cons]
    cases htask : w.task? config (call, first) with
    | none => exact .cons _ (ih (first + 1))
    | some task =>
      rw [List.map_cons, id_of_task? htask]
      exact .cons_cons _ (ih (first + 1))

theorem isTaskOf_of_task? {piece : Piece} (hpiece : piece ∈ pieces) {numbered : Call × Nat}
    (hcall : numbered.1 ∈ piece.calls) {task : Task}
    (h : w.task? piece.coordinator.config numbered = some task) : IsTaskOf pieces task := by
  obtain ⟨request, hrequest, rfl⟩ := Option.map_eq_some_iff.1 h
  obtain ⟨call, id⟩ := numbered
  cases haccept : call.accept w.clock (w.now * Config.milli) piece.coordinator.config with
  | error e =>
    rw [haccept] at hrequest
    cases hrequest
  | ok accepted =>
    rw [haccept] at hrequest
    obtain rfl := Option.some.inj hrequest
    exact ⟨piece, hpiece, call, hcall, accepted, request_of_accept haccept, rfl⟩

/-- **A piece adds only its own calls.** -/
theorem Accounts.planned (h : w.Accounts pieces) {piece : Piece} (hpiece : piece ∈ pieces) :
    (w.planned piece).Accounts pieces := by
  let tasks := (piece.calls.zipIdx w.next).filterMap (w.task? piece.coordinator.config)
  have hids : (tasks.map Task.id).Sublist (List.range' w.next piece.calls.length) :=
    w.ids_sublist ..
  have hrange : ∀ task ∈ tasks, w.next ≤ task.id ∧ task.id < w.next + piece.calls.length := by
    intro task htask
    simpa [List.mem_range'_1] using hids.mem (List.mem_map_of_mem htask)
  have hnumbered : ({ w with
      cluster := piece.cluster, broker := piece.broker
      next := w.next + piece.calls.length } : World).Accounts pieces :=
    { h with
      older := fun task htask => Nat.lt_add_right _ (h.older task htask)
      broker := fun e he => ⟨piece, hpiece, he⟩ }
  refine hnumbered.schedule_launches (fun task htask => ?_) (hids.nodup List.nodup_range')
    (fun task htask other hother => ?_) fun task htask => (hrange task htask).2
  · obtain ⟨numbered, hnumbered, htask⟩ := List.mem_filterMap.1 htask
    exact isTaskOf_of_task? hpiece (List.fst_mem_of_mem_zipIdx hnumbered) htask
  · exact Nat.ne_of_lt (Nat.lt_of_lt_of_le (h.older other hother) (hrange task htask).1)

theorem accounts_staged {hub : Hub} (hs : hub.Sound) (frames : List (Nat × List Outside))
    (pieces : List Piece) : (World.staged hub frames).Accounts pieces := by
  have hknown : (World.staged hub frames).known = [] := by
    simp [World.staged, World.known, launches, List.filterMap_map, Occurrence.task?, World.new]
  have hnobody {P : Task → Prop} : ∀ task ∈ (World.staged hub frames).known, P task := by
    simp [hknown]
  exact {
    known := hnobody
    nodup := by simp [hknown]
    older := hnobody
    names := rfl
    tuned := ⟨hs.id_lt, List.forall_mem_nil _⟩
    requests := List.forall_mem_nil _
    responders := List.forall_mem_nil _
    agenda := fun x hx => by
      obtain ⟨frame, -, rfl⟩ := List.mem_map.1 hx
      exact tellsOnly_outside _ _ _
    broker := fun e he => by cases he
    courses := List.forall_mem_nil _ }

/-- **At every moment all that goes on is the matter of a call.** -/
theorem Reached.accounts {hub : Hub} {frames : List (Nat × List Outside)} (hs : hub.Sound)
    (h : Reached hub frames pieces w) : w.Accounts pieces := by
  induction h with
  | staged => exact accounts_staged hs frames pieces
  | planned _ hpiece ih => exact ih.planned hpiece
  | step _ hs ih => exact ih.step? hs

section Performances

variable {hub : Hub} {frames : List (Nat × List Outside)}

theorem Reached.runFor (h : Reached hub frames pieces w) (fuel : Nat) (ids : List Nat) :
    Reached hub frames pieces (World.runFor fuel w ids) := by
  induction fuel generalizing w with
  | zero =>
    unfold World.runFor
    split <;> exact h
  | succ fuel ih =>
    unfold World.runFor
    split
    · exact h
    · cases hs : w.step? with
      | none => exact h
      | some w' => exact ih (h.step hs)

/-- To play a piece is to plan it and to go on. -/
theorem perform_eq (w : World) (piece : Piece) :
    ∃ fuel ids, w.perform piece = World.runFor fuel (w.planned piece) ids := by
  rw [perform, playTogether, List.filterMap_map]
  exact ⟨_, _, rfl⟩

/-- Where pieces are played one after the other, their end is a moment. -/
theorem Reached.performAll (h : Reached hub frames pieces w) {more : List Piece}
    (hmore : ∀ piece ∈ more, piece ∈ pieces) : Reached hub frames pieces (w.performAll more) := by
  induction more generalizing w with
  | nil => exact h
  | cons piece rest ih =>
    obtain ⟨hpiece, hrest⟩ := List.forall_mem_cons.1 hmore
    obtain ⟨fuel, ids, hperform⟩ := w.perform_eq piece
    refine ih ?_ hrest
    rw [hperform]
    exact (h.planned hpiece).runFor fuel ids

end Performances

end World

end Rehearsal

end Custody
