import Custody.Proofs.Fleet.Between
import Custody.Proofs.Session.Id
import Custody.Proofs.Wait
/-!
# Results that come early

A run that holds a subscription loses nothing that is published on its channel, as long as nobody
closes the channel and its receiver has room: it has read some of the payloads, all of them noise,
and its receiver keeps the others in their order, or it has returned the first result among them
(`Run.Follows`). This holds from the moment at which the subscription is open
(`Fleet.follows_attach`), whether the trigger has been acknowledged then or not, and each input
keeps it (`Fleet.Follows.step`). So the first result between that moment and the deadline is
returned, whenever it comes (`Fleet.early_result`).
-/

namespace Custody

open Ceremony

/-- What one is told at a deadline who has been given these payloads. -/
def ChannelKey.verdict (key : ChannelKey) (payloads : List String) :
    Except Error CeremonyResult :=
  match payloads.findSome? (resultOf? key.purpose) with
  | some result => .ok result
  | none => .error (.timeout key.name)

/-! ## Runs that follow their channel -/

namespace Run

/-- `run.Follows hub acknowledged payloads`: these payloads have been published since the run's
subscription was opened, and none of them is lost to it. -/
inductive Follows (hub : Hub) (run : Run) : Bool → List String → Prop
  /-- The run has read some of the payloads and found nothing; its receiver keeps the others. -/
  | reading {acknowledged : Bool} {id : ReceiverId} {r : Receiver} {read : List String}
    (hp : run.phase = if acknowledged then .waiting else .triggering true)
    (hid : run.receiver = some id) (hr : hub.receiver? id = some r) (ho : r.isOpen = true)
    (hread : ∀ payload ∈ read, resultOf? run.ceremony.channel.purpose payload = none) :
    Follows hub run acknowledged (read ++ r.pending)
  /-- The run has returned the first result. -/
  | ended {payloads : List String} {result : CeremonyResult}
    (hp : run.phase = .finished (.returned (.ok result))) (hid : run.receiver = none)
    (hfirst : payloads.findSome? (resultOf? run.ceremony.channel.purpose) = some result) :
    Follows hub run true payloads

variable {hub : Hub} {run : Run} {acknowledged : Bool} {payloads : List String}

/-- One who follows its channel goes on when its receiver stays as it is. -/
theorem Follows.of_receiver? {hub' : Hub} (h : run.Follows hub acknowledged payloads)
    (hsame : ∀ id r, run.receiver = some id → hub.receiver? id = some r →
      hub'.receiver? id = some r) : run.Follows hub' acknowledged payloads := by
  cases h with
  | reading hp hid hr ho hread => exact .reading hp hid (hsame _ _ hid hr) ho hread
  | ended hp hid hfirst => exact .ended hp hid hfirst

/-- One look reads a payload that is noise, or the first result. -/
theorem Follows.look (h : run.Follows hub acknowledged payloads) (hs : hub.Sound) :
    (run.look hub).2.Follows (run.look hub).1 acknowledged payloads := by
  cases h with
  | ended hp hid hfirst =>
    rw [look_of_not_waiting hub (by simp [hid])]
    exact .ended hp hid hfirst
  | @reading _ id r read hp hid hr ho hread =>
    cases acknowledged with
    | false =>
      rw [look_of_not_waiting hub (by simp [hp])]
      exact .reading hp hid hr ho hread
    | true =>
      have hafter : (hub.apply (.receive id)).2.receiver? id = some r.read.2 := by
        rw [Hub.receiver?_apply_of_receiver? hs hr]
        simp [Receiver.after?, Hub.id_of_receiver? hr]
      rw [look_of_waiting hp hid hr, Receiver.read_fst, ho]
      cases hpending : r.pending with
      | nil =>
        simpa [hpending] using Follows.reading hp hid hafter (r.read_isOpen.trans ho) hread
      | cons payload rest =>
        simp only [List.head?_cons, Option.elim_some]
        cases hresult : resultOf? run.ceremony.channel.purpose payload with
        | none =>
          have hstep : run.ceremony.step run.phase (.message payload) = (.waiting, []) := by
            simp [hp, step, afterWait, Wait.step, hresult]
          have hmore : ∀ p ∈ read ++ [payload],
              resultOf? run.ceremony.channel.purpose p = none := by
            simpa [or_imp, forall_and, hresult] using hread
          rw [advance_eq, hstep, if_neg List.not_mem_nil]
          have hnext : Follows (hub.apply (.receive id)).2 { run with phase := .waiting } true
              (read ++ [payload] ++ r.read.2.pending) :=
            .reading rfl hid hafter (r.read_isOpen.trans ho) hmore
          simpa [hpending] using hnext
        | some result =>
          have hstep : run.ceremony.step run.phase (.message payload) =
              (.finished (.returned (.ok result)), [.release]) := by
            rw [hp]
            exact (Move.result hresult).step_eq
          rw [advance_eq, hstep, if_pos List.mem_cons_self]
          refine .ended rfl rfl ?_
          rw [List.findSome?_append, List.findSome?_eq_none_iff.2 hread, Option.none_or,
            List.findSome?_cons_of_isSome (by simp [hresult]), hresult]

/-- The acknowledgement changes nothing in what has been read. -/
theorem Follows.acknowledge (h : run.Follows hub false payloads) :
    (Fleet.advance hub run .acknowledged).2.2.Follows (Fleet.advance hub run .acknowledged).2.1 true
      payloads := by
  cases h with
  | reading hp hid hr ho hread =>
    have hstep : run.ceremony.step run.phase .acknowledged = (.waiting, []) := by
      rw [hp]
      exact Move.acknowledgedEarly.step_eq
    rw [advance_eq, hstep, if_neg List.not_mem_nil]
    exact .reading rfl hid hr ho hread

/-- **One who has nothing left to read when the deadline comes** has been given all payloads. -/
theorem Follows.advance_deadline (h : run.Follows hub true payloads)
    (hkept : run.kept hub = []) :
    (Fleet.advance hub run .deadline).2.2.phase =
      .finished (.returned (run.ceremony.channel.verdict payloads)) := by
  rw [advance_eq]
  cases h with
  | ended hp hid hfirst => simp [hp, step_finished, ChannelKey.verdict, hfirst]
  | @reading _ id r read hp hid hr ho hread =>
    have hpending : r.pending = [] := (kept_of_receiver? hid hr).symm.trans hkept
    have hstep : run.ceremony.step run.phase .deadline =
        (fail (.timeout run.ceremony.channel.name), [.release]) := by
      rw [hp]
      exact Move.waitElapsed.step_eq
    rw [hstep, if_pos List.mem_cons_self, hpending, List.append_nil, ChannelKey.verdict,
      List.findSome?_eq_none_iff.2 hread]
    rfl

/-- **A payload that is published on the channel of a run** is not lost to it, where there is
room. -/
theorem Follows.publish (hf : run.Follows hub acknowledged payloads) (hs : hub.Sound)
    (hb : run.Bound hub) (hroom : (run.kept hub).length < hub.capacity) (payload : String) :
    run.Follows (hub.apply (.publish run.channel payload)).2 acknowledged
      (payloads ++ [payload]) := by
  cases hf with
  | ended hp hid hfirst =>
    exact .ended hp hid (by rw [List.findSome?_append, hfirst, Option.some_or])
  | @reading _ id r read hp hid hr ho hread =>
    obtain ⟨r', hr', hc⟩ := hb.receiver?_eq id hid
    obtain rfl := Option.some.inj (hr.symm.trans hr')
    have hlistens : r.listensOn run.channel = true := by
      simpa [Receiver.listensOn, ho] using hc
    have hlength : (r.pending ++ [payload]).length ≤ hub.capacity := by
      rwa [List.length_append, ← kept_of_receiver? hid hr]
    have hafter : (hub.apply (.publish run.channel payload)).2.receiver? id =
        some { r with pending := r.pending ++ [payload] } := by
      rw [Hub.receiver?_apply_of_receiver? hs hr]
      simp [Receiver.after?, hlistens, Receiver.deliver, Receiver.keepLast_of_length_le hlength]
    simpa using Follows.reading hp hid hafter ho hread

end Run

namespace Fleet

variable {fleet : Fleet} {id : Nat} {c : Ceremony}

/-! ## What is published for a run -/

/-- The payloads that are published on a channel in inputs. -/
def published (channel : String) (inputs : List Input) : List String :=
  (inputs.flatMap Input.outsides).filterMap fun op => Act.payload? channel (.outside op)

/-- Whenever something is published on the channel of a run while others do all this, the run has no
more than `limit` payloads to read then. -/
def RoomFor (limit id : Nat) (fleet : Fleet) : List Outside → Prop
  | [] => True
  | op :: rest =>
    (∀ run ∈ fleet.run? id,
      (run.kept fleet.hub ++ (Act.payload? run.channel (.outside op)).toList).length ≤ limit) ∧
    RoomFor limit id (fleet.act (.outside op)) rest

/-- A run never has more than `limit` payloads to read. -/
def HasRoom (limit id : Nat) (fleet : Fleet) : List Input → Prop
  | [] => True
  | input :: rest =>
    RoomFor limit id fleet input.outsides ∧ HasRoom limit id (fleet.step input).2 rest

instance decidableRoomFor (limit id : Nat) : (fleet : Fleet) → (ops : List Outside) →
    Decidable (RoomFor limit id fleet ops)
  | _, [] => .isTrue trivial
  | fleet, op :: rest =>
    have := decidableRoomFor limit id (fleet.act (.outside op)) rest
    inferInstanceAs (Decidable (_ ∧ _))

instance decidableHasRoom (limit id : Nat) : (fleet : Fleet) → (inputs : List Input) →
    Decidable (HasRoom limit id fleet inputs)
  | _, [] => .isTrue trivial
  | fleet, input :: rest =>
    have := decidableHasRoom limit id (fleet.step input).2 rest
    inferInstanceAs (Decidable (_ ∧ _))

/-! ## Fleets in which a run follows its channel -/

/-- The fleet is in order, and the run with this number follows its channel. -/
structure Follows (id : Nat) (c : Ceremony) (fleet : Fleet) (acknowledged : Bool)
    (payloads : List String) : Prop where
  inOrder : fleet.InOrder
  nodup : (fleet.runs.map Run.id).Nodup
  run : ∃ run, fleet.run? id = some run ∧ run.ceremony = c ∧
    run.Follows fleet.hub acknowledged payloads

variable {acknowledged : Bool} {payloads : List String} {limit : Nat}

theorem Follows.act_of_not_concerns (h : Follows id c fleet acknowledged payloads) {a : Act}
    (ha : a.concerns c.channel.name id = false) :
    Follows id c (fleet.act a) acknowledged payloads := by
  obtain ⟨run, hrun, rfl, hf⟩ := h.run
  obtain ⟨hself, -, hreceiver⟩ := h.inOrder.act_of_not_concerns hrun ha
  exact ⟨h.inOrder.act a, by rw [ids_act]; exact h.nodup,
    run, hself, rfl, hf.of_receiver? fun receiver r hid hr => hreceiver receiver r hid hr⟩

/-- The turn of the run. -/
theorem Follows.turn (h : Follows id c fleet acknowledged payloads) {t : Turn} {next : Bool}
    (hf : ∀ run : Run, run.ceremony = c → run.Follows fleet.hub acknowledged payloads →
      (run.take fleet.hub t).2.Follows (run.take fleet.hub t).1 next payloads) :
    Follows id c (fleet.act (.turn id t)) next payloads := by
  obtain ⟨run, hrun, hc, hfollows⟩ := h.run
  obtain ⟨hhub, hself, -⟩ := act_turn hrun t
  exact ⟨h.inOrder.act _, by rw [ids_act]; exact h.nodup, _, hself,
    (run.take_id_ceremony fleet.hub t).2.trans hc, hhub ▸ hf run hc hfollows⟩

theorem Follows.look (h : Follows id c fleet acknowledged payloads) (other : Nat) :
    Follows id c (fleet.act (.turn other .look)) acknowledged payloads := by
  by_cases ho : other = id
  · subst ho
    exact h.turn fun run _ hf => hf.look h.inOrder.sound
  · exact h.act_of_not_concerns (by simpa [Act.concerns] using ho)

/-- What others do, other than closing the channel, loses nothing where there is room. -/
theorem Follows.outside (h : Follows id c fleet acknowledged payloads) {op : Outside}
    (hclose : op ≠ .close c.channel.name)
    (hroom : ∀ run ∈ fleet.run? id,
      (run.kept fleet.hub ++ (Act.payload? run.channel (.outside op)).toList).length ≤ limit)
    (hlimit : limit ≤ fleet.hub.capacity) :
    Follows id c (fleet.act (.outside op)) acknowledged
      (payloads ++ (Act.payload? c.channel.name (.outside op)).toList) := by
  cases hconcerns : Act.concerns c.channel.name id (.outside op) with
  | false =>
    have hnone : Act.payload? c.channel.name (.outside op) = none := by
      cases op <;> simp_all [Act.concerns, Act.payload?]
    simpa [hnone] using h.act_of_not_concerns hconcerns
  | true =>
    obtain ⟨payload, rfl⟩ : ∃ payload, op = .publish c.channel.name payload := by
      cases op <;> simp_all [Act.concerns]
    obtain ⟨run, hrun, rfl, hf⟩ := h.run
    have hpayload : Act.payload? run.channel (.outside (.publish run.channel payload)) =
        some payload := if_pos rfl
    have hspace : (run.kept fleet.hub).length < fleet.hub.capacity := by
      have hkept := Nat.le_trans (hroom run hrun) hlimit
      rw [← Run.channel, hpayload, List.length_append] at hkept
      exact hkept
    have hnext := hf.publish h.inOrder.sound (h.inOrder.bound id run hrun) hspace payload
    refine ⟨h.inOrder.act _, by rw [ids_act]; exact h.nodup, run, hrun, rfl, ?_⟩
    rw [← Run.channel, hpayload]
    exact hnext

theorem Follows.play_outside (h : Follows id c fleet acknowledged payloads) {ops : List Outside}
    (hclose : .close c.channel.name ∉ ops) (hroom : RoomFor limit id fleet ops)
    (hlimit : limit ≤ fleet.hub.capacity) :
    Follows id c (fleet.play (ops.map .outside)) acknowledged
      (payloads ++ ops.filterMap fun op => Act.payload? c.channel.name (.outside op)) := by
  induction ops generalizing fleet payloads with
  | nil => simpa [play] using h
  | cons op rest ih =>
    have hne : op ≠ .close c.channel.name := fun he => hclose (he ▸ List.mem_cons_self)
    have hnext := ih (h.outside hne hroom.1 hlimit)
      (fun hmem => hclose (List.mem_cons_of_mem op hmem)) hroom.2
      (by rwa [show (fleet.act (.outside op)).hub.capacity = fleet.hub.capacity from
        (fleet.hub.capacity_next_apply _).1])
    have hsplit : (op :: rest).filterMap (fun op => Act.payload? c.channel.name (.outside op)) =
        (Act.payload? c.channel.name (.outside op)).toList ++
          rest.filterMap fun op => Act.payload? c.channel.name (.outside op) := by
      cases hp : Act.payload? c.channel.name (.outside op) <;> simp [hp]
    rw [hsplit, ← List.append_assoc]
    exact hnext

theorem Follows.settle (h : Follows id c fleet acknowledged payloads) :
    Follows id c fleet.settle acknowledged payloads := by
  obtain ⟨acts, hacts, hlooks⟩ := exists_play_settle h.inOrder h.nodup
  rw [hacts]
  clear hacts
  induction acts generalizing fleet with
  | nil => exact h
  | cons a rest ih =>
    obtain ⟨other, rfl⟩ := hlooks a List.mem_cons_self
    exact ih (h.look other) fun b hb => hlooks b (List.mem_cons_of_mem _ hb)

/-- **An input that does not happen to a run** brings it what is published on its channel. -/
theorem Follows.step (h : Follows id c fleet acknowledged payloads) {input : Input}
    (hplain : input.IsPlain) (hfor : input.isFor id = false)
    (hclose : .close c.channel.name ∉ input.outsides)
    (hroom : RoomFor limit id fleet input.outsides) (hlimit : limit ≤ fleet.hub.capacity) :
    Follows id c (fleet.step input).2 acknowledged
      (payloads ++ published c.channel.name [input]) := by
  suffices hperform : Follows id c (fleet.perform input).2 acknowledged
      (payloads ++ published c.channel.name [input]) from hperform.settle
  cases input with
  | outside ops =>
    rw [perform_outside]
    simpa [published, Input.outsides] using h.play_outside hclose hroom hlimit
  | attach number =>
    rw [show published c.channel.name [.attach number] = [] from rfl, List.append_nil]
    exact h.act_of_not_concerns (a := .turn number .attach) hfor
  | event number e =>
    obtain ⟨s, rfl⟩ := hplain
    rw [show published c.channel.name [.event number s.event] = [] from rfl, List.append_nil]
    exact h.act_of_not_concerns (a := .turn number (.signal s)) hfor

theorem Follows.acknowledge (h : Follows id c fleet false payloads) :
    Follows id c (fleet.step (.event id .acknowledged)).2 true payloads :=
  (h.turn (t := .signal .acknowledged) fun _ _ hf => hf.acknowledge).settle

/-- **Inputs of which only the acknowledgement happens to a run**, if it is still to come, bring it
all that is published on its channel. -/
theorem Follows.steps (h : Follows id c fleet acknowledged payloads) {inputs : List Input}
    (hplain : ∀ input ∈ inputs, input.IsPlain)
    (hown : inputs.filter (·.isFor id) = if acknowledged then [] else [.event id .acknowledged])
    (hclose : ∀ input ∈ inputs, .close c.channel.name ∉ input.outsides)
    (hroom : HasRoom limit id fleet inputs) (hlimit : limit ≤ fleet.hub.capacity) :
    Follows id c (fleet.steps inputs) true (payloads ++ published c.channel.name inputs) := by
  induction inputs generalizing fleet acknowledged payloads with
  | nil =>
    cases acknowledged with
    | true => simpa [published, Fleet.steps] using h
    | false => cases hown
  | cons input rest ih =>
    have hinput := hplain input List.mem_cons_self
    have hsplit : published c.channel.name (input :: rest) =
        published c.channel.name [input] ++ published c.channel.name rest := by
      simp [published]
    have hrest := fun later hlater => hplain later (List.mem_cons_of_mem input hlater)
    have hrest' := fun later hlater => hclose later (List.mem_cons_of_mem input hlater)
    have hcapacity : limit ≤ (fleet.step input).2.hub.capacity :=
      (capacity_step h.inOrder h.nodup hinput).symm ▸ hlimit
    rw [hsplit, ← List.append_assoc]
    cases hfor : input.isFor id with
    | false =>
      rw [List.filter_cons_of_neg (by simp [hfor])] at hown
      exact ih (h.step hinput hfor (hclose input List.mem_cons_self) hroom.1 hlimit) hrest hown
        hrest' hroom.2 hcapacity
    | true =>
      rw [List.filter_cons_of_pos hfor] at hown
      cases acknowledged with
      | true => cases hown
      | false =>
        obtain ⟨rfl, hnone⟩ := List.cons.inj hown
        have hnext := ih h.acknowledge hrest hnone hrest' hroom.2 hcapacity
        rwa [show published c.channel.name [.event id .acknowledged] = [] from rfl, List.append_nil]

/-! ## Before the subscription is open, and at the deadline -/

/-- A run to which nothing has happened but the acknowledgement, if its trigger comes first, waits
for its subscription. -/
theorem run?_before_attach (h : fleet.InOrder) (hd : (fleet.runs.map Run.id).Nodup)
    (hplan : c.plan = if acknowledged then .triggerFirst else .subscribeFirst)
    (hrun : fleet.run? id = some ⟨id, c, c.start.1, none⟩) {inputs : List Input}
    (hplain : ∀ input ∈ inputs, input.IsPlain)
    (hown : inputs.filter (·.isFor id) = if acknowledged then [.event id .acknowledged] else []) :
    (fleet.steps inputs).run? id =
      some ⟨id, c, if acknowledged then .attaching else .subscribing, none⟩ := by
  cases acknowledged with
  | false =>
    have hstart : c.start.1 = .subscribing := by simp [start, hplan]
    rw [hstart] at hrun
    exact run?_steps h hd hrun Phase.noConfusion hplain (by simpa using hown)
  | true =>
    have hstart : c.start.1 = .triggering false := by simp [start, hplan]
    rw [hstart] at hrun
    obtain ⟨before, after, rfl, hbefore, -, hafter⟩ := List.filter_eq_cons_iff.1 hown
    have hplain' : Input.IsPlain (.event id .acknowledged) := ⟨.acknowledged, rfl⟩
    have hin := fun input hmem => hplain input (List.mem_append_left _ hmem)
    have hout := fun input hmem => hplain input (List.mem_append_right _ (.tail _ hmem))
    obtain ⟨horder, hnodup, -⟩ := h.steps hd hin
    have hfirst := run?_steps h hd hrun Phase.noConfusion hin (by simpa using hbefore)
    have hack : ((fleet.steps before).step (.event id .acknowledged)).2.run? id =
        some ⟨id, c, .attaching, none⟩ := by
      refine run?_step horder hnodup hplain' ?_ Phase.noConfusion
      exact (act_turn hfirst (.signal .acknowledged)).2.1
    rw [steps_append]
    exact run?_steps (horder.step hnodup hplain') (nodup_ids_step horder hnodup hplain') hack
      Phase.noConfusion hout (by simpa using hafter)

/-- **A run follows its channel from the moment at which its subscription is open.** -/
theorem follows_attach (h : fleet.InOrder) (hd : (fleet.runs.map Run.id).Nodup)
    (hrun : fleet.run? id = some ⟨id, c, if acknowledged then .attaching else .subscribing, none⟩) :
    Follows id c (fleet.step (.attach id)).2 acknowledged [] := by
  suffices hact : Follows id c (fleet.act (.turn id .attach)) acknowledged [] from hact.settle
  obtain ⟨hhub, hself, -⟩ := act_turn hrun .attach
  refine ⟨h.act _, by rwa [ids_act], _, hself, (Run.take_id_ceremony _ _ _).2, ?_⟩
  rw [hhub]
  obtain ⟨next, hsub⟩ := fleet.hub.exists_subscribe c.channel.valid_name
  obtain ⟨-, -, -, hnew⟩ := Hub.receiver?_subscribe h.sound hsub
  have hawaits :
      Phase.awaitsAttachment (if acknowledged then .attaching else .subscribing) = true := by
    cases acknowledged <;> rfl
  simp only [Run.take, Run.attach, hawaits, if_true, Run.channel, hsub]
  have hstep : ∃ effects, .release ∉ effects ∧
      c.step (if acknowledged then .attaching else .subscribing) .attached =
        (if acknowledged then .waiting else .triggering true, effects) := by
    cases acknowledged with
    | false => exact ⟨[.notify], by simp, Move.attachedEarly.step_eq⟩
    | true => exact ⟨[], by simp, Move.attachedLate.step_eq⟩
  obtain ⟨effects, hrelease, hstep⟩ := hstep
  rw [Run.advance_eq, hstep, if_neg hrelease]
  have hopen : Run.Follows next
      ⟨id, c, if acknowledged then .waiting else .triggering true, some fleet.hub.next⟩ acknowledged
      ([] ++ []) :=
    .reading (r := ⟨fleet.hub.next, c.channel.name, [], true⟩) rfl rfl hnew rfl
      (List.forall_mem_nil _)
  exact hopen

/-- **A run that follows its channel, and has read all there is when the deadline comes,** has come
to the verdict on all payloads. -/
theorem Follows.deadline (h : Follows id c fleet true payloads)
    (hkept : ∀ run, fleet.run? id = some run → run.phase = .waiting → run.kept fleet.hub = []) :
    (fleet.step (.event id .deadline)).2.phase? id =
      some (.finished (.returned (c.channel.verdict payloads))) := by
  obtain ⟨run, hrun, rfl, hf⟩ := h.run
  have hplain : Input.IsPlain (.event id .deadline) := ⟨.deadline, rfl⟩
  have hnothing : run.kept fleet.hub = [] := by
    cases hf with
    | reading hp hid hr ho hread => exact hkept run hrun hp
    | ended hp hid hfirst => simp [Run.kept, hid]
  have hphase := hf.advance_deadline hnothing
  have hperform := (act_turn hrun (.signal .deadline)).2.1
  have hstep := run?_step h.inOrder h.nodup hplain hperform (by
    rw [Run.take, Signal.event, hphase]
    exact Phase.noConfusion)
  rw [phase?, hstep, Option.map_some, Run.take, Signal.event, hphase]

/-- **Nothing is lost between the subscription and the deadline.** Take ceremonies with different
channels that run over one hub, which may have been used before. One of them belongs to a call whose
trigger is acknowledged, before its subscription is open or after, as its configuration says. As
long as nobody closes its channel from then on and it never has more than 64 payloads to read, it
returns the first result that is published between the moment at which its subscription is open and
its deadline, and a timeout if there is none; what was published earlier has no effect. -/
theorem early_result {earlier : List Hub.Operation} {ceremonies : List Ceremony}
    (hd : (ceremonies.map Ceremony.channel).Nodup) {id : Nat} {config : Config} {call : Call}
    (hc : ceremonies[id]? = some (call.ceremony config)) {first later : List Input}
    (hplain : ∀ input ∈ first ++ later, input.IsPlain)
    (hfirst : first.filter (·.isFor id) =
      if config.subscribeFirst then [] else [.event id .acknowledged])
    (hlater : later.filter (·.isFor id) =
      if config.subscribeFirst then [.event id .acknowledged] else [])
    (hclose : ∀ input ∈ later, .close call.channel.name ∉ input.outsides)
    (hroom : HasRoom 64 id ((launched (Hub.standard.run earlier).2 ceremonies).steps
      (first ++ [.attach id])) later) :
    ((launched (Hub.standard.run earlier).2 ceremonies).steps
        (first ++ [.attach id] ++ later ++ [.event id .deadline])).phase? id =
      some (.finished (.returned
        (call.channel.verdict (published call.channel.name later)))) := by
  have hs : (Hub.standard.run earlier).2.Sound := Hub.sound_run (Hub.sound_new 64) earlier
  have hcapacity : (launched (Hub.standard.run earlier).2 ceremonies).hub.capacity = 64 := by
    rw [(launched_hub_runs _ _).1, Hub.capacity_run]
    rfl
  have hrun : (launched (Hub.standard.run earlier).2 ceremonies).run? id =
      some ⟨id, call.ceremony config, (call.ceremony config).start.1, none⟩ :=
    run?_launched.2 ⟨_, hc, rfl⟩
  have horder := inOrder_launched hs hd
  have hnodup := nodup_ids_launched (Hub.standard.run earlier).2 ceremonies
  generalize launched (Hub.standard.run earlier).2 ceremonies = fleet at *
  -- the trigger is acknowledged before the subscription is open, or after
  have hown : ∃ acknowledged : Bool,
      (call.ceremony config).plan = (if acknowledged then .triggerFirst else .subscribeFirst) ∧
      first.filter (·.isFor id) = (if acknowledged then [.event id .acknowledged] else []) ∧
      later.filter (·.isFor id) = if acknowledged then [] else [.event id .acknowledged] := by
    refine ⟨!config.subscribeFirst, ?_⟩
    cases hsub : config.subscribeFirst <;> simp [Call.ceremony, hsub, hfirst, hlater]
  obtain ⟨acknowledged, hplan, hfirst, hlater⟩ := hown
  have hin := fun input hmem => hplain input (List.mem_append_left later hmem)
  have hout := fun input hmem => hplain input (List.mem_append_right first hmem)
  obtain ⟨horder', hnodup', hcapacity'⟩ := horder.steps hnodup hin
  have hbefore := run?_before_attach horder hnodup hplan hrun hin hfirst
  have hopen := follows_attach horder' hnodup' hbefore
  have hattach : Input.IsPlain (.attach id) := trivial
  rw [steps_append] at hroom
  have hread := hopen.steps hout hlater hclose hroom
    (Nat.le_of_eq (by rw [capacity_step horder' hnodup' hattach, hcapacity', hcapacity]))
  rw [List.append_assoc, List.append_assoc, steps_append, List.singleton_append,
    ← List.cons_append, steps_append]
  refine hread.deadline fun run hself hp => ?_
  exact horder'.kept_steps hnodup' (List.cons_ne_nil _ _)
    (by simpa [hattach] using hout) hself hp

/-- A heartbeat before the acknowledgement and a key after it, with a payload for somebody else. -/
def eager : List Input :=
  [.outside [.publish "keygen:s1" "heartbeat"], .event 0 .acknowledged,
    .outside [.publish "sign:s1" "theirs",
      .publish "keygen:s1" "\x7b\"share_data\":\"c2hhcmU=\",\"pub_key\":\"0x01\"\x7d"]]

theorem early_result_of_eager :
    HasRoom 64 0 ((launched Hub.standard [Call.firstWallet.ceremony .early]).steps [.attach 0])
        eager ∧
      ((launched Hub.standard [Call.firstWallet.ceremony .early]).steps
        ([.attach 0] ++ eager ++ [.event 0 .deadline])).phase? 0 =
          some (.finished (.returned (.ok (.keygen ⟨[115, 104, 97, 114, 101], "0x01"⟩)))) := by
  have hplain : ∀ input ∈ [] ++ eager, input.IsPlain := by
    simp only [eager, List.nil_append, List.forall_mem_cons]
    exact ⟨trivial, ⟨.acknowledged, rfl⟩, trivial, nofun⟩
  have hclose : ∀ input ∈ eager, .close Call.firstWallet.channel.name ∉ input.outsides := by
    decide
  have hroom : HasRoom 64 0
      ((launched Hub.standard [Call.firstWallet.ceremony .early]).steps [.attach 0]) eager := by
    decide +kernel
  have hverdict : Call.firstWallet.channel.verdict
      (published Call.firstWallet.channel.name eager) =
        .ok (.keygen ⟨[115, 104, 97, 114, 101], "0x01"⟩) := by
    decide +kernel
  refine ⟨hroom, ?_⟩
  rw [← hverdict]
  exact @early_result [] [Call.firstWallet.ceremony .early] (by simp) 0 .early .firstWallet rfl []
    eager hplain rfl rfl hclose hroom

end Fleet

end Custody
