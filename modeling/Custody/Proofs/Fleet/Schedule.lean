import Custody.Proofs.Fleet.Release
import Mathlib.Logic.Function.Iterate
/-!
# Schedules

A fleet that takes inputs (`Fleet.steps`) lets every run that waits read all that its receiver keeps
after each of them. This is one of the orders in which turns can happen: what a run reads at once it
also reads one payload at a time (`Run.exists_looks`), and so inputs in a row are a play
(`Fleet.exists_play_steps`). Whatever holds after every play holds after inputs.
-/

namespace Custody

open Ceremony

/-! ## Reading at once and one at a time -/

/-- A payload is noise, or ends the wait. -/
theorem Ceremony.step_message (c : Ceremony) (payload : String) :
    c.step .waiting (.message payload) = (.waiting, []) ∨
      ∃ outcome, c.step .waiting (.message payload) = (.finished outcome, [.release]) := by
  cases hr : resultOf? c.channel.purpose payload with
  | none => exact .inl (by simp [step, afterWait, Wait.step, hr])
  | some result => exact .inr ⟨_, (Move.result hr).step_eq⟩

theorem Receiver.read_snd (r : Receiver) : r.read.2 = { r with pending := r.pending.tail } := by
  obtain ⟨id, channel, pending, isOpen⟩ := r
  cases pending <;> rfl

namespace Hub

/-- The hub after so many payloads have been read with a receiver. -/
def skim (hub : Hub) (id : ReceiverId) (n : Nat) : Hub :=
  { hub with
    receivers := hub.receivers.map fun r =>
      if r.id = id then { r with pending := r.pending.drop n } else r }

variable {hub : Hub} {id : ReceiverId}

theorem skim_zero (hub : Hub) (id : ReceiverId) : hub.skim id 0 = hub := by
  simp [skim]

theorem apply_receive (hub : Hub) (id : ReceiverId) :
    (hub.apply (.receive id)).2 = hub.skim id 1 := by
  simp only [apply, receive, skim, List.drop_one]
  cases h : hub.receivers.find? (·.id == id) with
  | some r => simp only [Receiver.read_snd]
  | none =>
    have hself : hub.receivers.map (fun r =>
        if r.id = id then { r with pending := r.pending.tail } else r) = hub.receivers := by
      conv_rhs => rw [← List.map_id hub.receivers]
      exact List.map_congr_left fun r hr => if_neg (ne_of_receiver?_eq_none h r hr)
    simp only [hself]

theorem skim_skim (hub : Hub) (id : ReceiverId) (m n : Nat) :
    (hub.skim id m).skim id n = hub.skim id (m + n) := by
  simp only [skim, List.map_map]
  congr 1
  refine List.map_congr_left fun r _ => ?_
  by_cases hr : r.id = id <;> simp [hr]

/-- One who is dropped takes along what it has not read. -/
theorem drop_skim (hub : Hub) (id : ReceiverId) (n : Nat) :
    ((hub.skim id n).apply (.drop id)).2 = (hub.apply (.drop id)).2 := by
  simp only [apply, drop, skim]
  congr 1
  rw [List.filter_map]
  have hids : (hub.receivers.filter ((fun r => decide (r.id ≠ id)) ∘ fun r =>
      if r.id = id then { r with pending := r.pending.drop n } else r)) =
        hub.receivers.filter fun r => r.id ≠ id :=
    List.filter_congr fun r _ => by by_cases hr : r.id = id <;> simp [hr]
  rw [hids]
  conv_rhs => rw [← List.map_id (hub.receivers.filter fun r => r.id ≠ id)]
  refine List.map_congr_left fun r hr => if_neg ?_
  simpa using (List.mem_filter.1 hr).2

/-- What is read at once. -/
theorem drain_eq (hs : hub.Sound) {r : Receiver} (hr : hub.receiver? id = some r) :
    hub.drain id = (r.pending, !r.isOpen, hub.skim id r.pending.length) := by
  have hfind : hub.receivers.find? (·.id == id) = some r := hr
  simp only [drain, hfind, skim, Prod.mk.injEq, true_and]
  congr 1
  refine List.map_congr_left fun other hother => ?_
  by_cases ho : other.id = id
  · obtain rfl := hs.eq_of_id hother (mem_of_receiver? hr) (ho.trans (id_of_receiver? hr).symm)
    simp
  · simp [ho]

end Hub

namespace Run

/-- One look of a run, as a function on hubs and runs. -/
def lookOnce (p : Hub × Run) : Hub × Run :=
  p.2.look p.1

variable {hub : Hub} {run : Run} {id : ReceiverId}

/-- What a run that waits does at once. -/
theorem settleRun_eq (hs : hub.Sound) (hp : run.phase = .waiting) (hid : run.receiver = some id)
    {r : Receiver} (hr : hub.receiver? id = some r) :
    Fleet.settleRun hub run =
      let (phase, effects) := Fleet.readAll run.ceremony .waiting r.pending
      let (phase, effects) :=
        if r.isOpen then (phase, effects)
        else ((run.ceremony.step phase .ended).1, effects ++ (run.ceremony.step phase .ended).2)
      Fleet.release (hub.skim id r.pending.length) { run with phase } effects := by
  simp only [Fleet.settleRun, hp, hid, Hub.drain_eq hs hr]
  cases r.isOpen <;> rfl

/-- The end of a run that has read so many payloads. -/
theorem release_skim (hid : run.receiver = some id) {effects : List Effect}
    (hr : .release ∈ effects) (next : Phase) (n : Nat) :
    Fleet.release (hub.skim id n) { run with phase := next } effects =
      ((hub.apply (.drop id)).2, { run with phase := next, receiver := none }) := by
  simp only [Fleet.release, hid, if_pos hr]
  exact Prod.ext (hub.drop_skim id n) rfl

theorem release_of_not_mem {effects : List Effect} (hr : .release ∉ effects) :
    Fleet.release hub run effects = (hub, run) := by
  simp only [Fleet.release, if_neg hr]
  cases run.receiver <;> rfl

/-- The end of a run that has just read a payload, or the end of its stream. -/
theorem advance_receive (hid : run.receiver = some id) {e : Event}
    (hr : .release ∈ (run.ceremony.step run.phase e).2) :
    (Fleet.advance (hub.apply (.receive id)).2 run e).2 =
      ((hub.apply (.drop id)).2,
        { run with phase := (run.ceremony.step run.phase e).1, receiver := none }) := by
  rw [advance_eq, if_pos hr, hid, Option.elim_some, Hub.apply_receive, Hub.drop_skim]

/-- **A run reads at once what it could read one payload at a time.** -/
theorem exists_looks (hs : hub.Sound) (hp : run.phase = .waiting) (hid : run.receiver = some id)
    {r : Receiver} (hr : hub.receiver? id = some r) :
    ∃ n, Fleet.settleRun hub run = lookOnce^[n] (hub, run) := by
  have hsame : { run with phase := .waiting } = run := by rw [← hp]
  have hended : (run.ceremony.step run.phase .ended).2 = [.release] := by rw [hp]; rfl
  generalize hpending : r.pending = pending
  induction pending generalizing hub r with
  | nil =>
    rw [settleRun_eq hs hp hid hr, hpending]
    cases ho : r.isOpen with
    | true =>
      refine ⟨0, ?_⟩
      simp only [Fleet.readAll, if_true, hsame, List.length_nil, Hub.skim_zero]
      exact release_of_not_mem List.not_mem_nil
    | false =>
      refine ⟨1, ?_⟩
      have hread : r.read.1 = .ended := by simp [Receiver.read_fst, hpending, ho]
      have hends : .release ∈ (run.ceremony.step run.phase .ended).2 := by simp [hended]
      simp only [Fleet.readAll, ← hp, List.nil_append, Function.iterate_one, lookOnce,
        look_of_waiting hp hid hr, hread]
      rw [advance_receive hid hends]
      exact release_skim hid hends _ _
  | cons payload rest ih =>
    have hread : r.read.1 = .payload payload := by simp [Receiver.read_fst, hpending]
    have hlook : run.look hub =
        (Fleet.advance (hub.apply (.receive id)).2 run (.message payload)).2 := by
      rw [look_of_waiting hp hid hr, hread]
    have hafter : (hub.apply (.receive id)).2.receiver? id = some r.read.2 := by
      rw [Hub.receiver?_apply_of_receiver? hs hr]
      simp [Receiver.after?, Hub.id_of_receiver? hr]
    rcases run.ceremony.step_message payload with hnoise | ⟨outcome, hends⟩
    · obtain ⟨n, hn⟩ := ih (hs.apply (.receive id)) hafter (by rw [r.read_pending, hpending]; rfl)
      refine ⟨n + 1, ?_⟩
      have hstay : run.look hub = ((hub.apply (.receive id)).2, run) := by
        rw [hlook, advance_eq, hp, hnoise, if_neg List.not_mem_nil, hsame]
      rw [Function.iterate_succ_apply, lookOnce, hstay, ← hn, settleRun_eq hs hp hid hr,
        settleRun_eq (hs.apply (.receive id)) hp hid hafter, r.read_isOpen, r.read_pending,
        hpending]
      simp only [Fleet.readAll, hnoise, List.tail_cons, List.length_cons, Hub.apply_receive,
        Hub.skim_skim, Nat.add_comm]
    · refine ⟨1, ?_⟩
      have hrelease : .release ∈ (run.ceremony.step run.phase (.message payload)).2 := by
        rw [hp, hends]
        exact List.mem_singleton.2 rfl
      rw [settleRun_eq hs hp hid hr, hpending, Function.iterate_one, lookOnce, hlook,
        advance_receive hid hrelease, hp, hends]
      simp only [Fleet.readAll, hends, step_finished, List.append_nil, ite_self]
      exact release_skim hid (List.mem_singleton.2 rfl) _ _

/-- A run that is bound to its hub reads at once what it could read one payload at a time, if it
reads at all. -/
theorem Bound.exists_looks (hb : run.Bound hub) (hs : hub.Sound) :
    ∃ n, Fleet.settleRun hub run = lookOnce^[n] (hub, run) := by
  by_cases hw : run.phase = .waiting ∧ run.receiver.isSome = true
  · obtain ⟨id, hid⟩ := Option.isSome_iff_exists.1 hw.2
    obtain ⟨r, hr, -⟩ := hb.receiver?_eq id hid
    exact Run.exists_looks hs hw.1 hid hr
  · refine ⟨0, ?_⟩
    unfold Fleet.settleRun
    split
    · next hp hid => exact absurd ⟨hp, by rw [hid]; rfl⟩ hw
    · rfl

theorem lookOnce_id (p : Hub × Run) : (lookOnce p).2.id = p.2.id :=
  (p.2.take_id_ceremony p.1 .look).1

end Run

/-! ## Inputs as plays -/

namespace Fleet

theorem play_append (fleet : Fleet) (first second : List Act) :
    fleet.play (first ++ second) = (fleet.play first).play second :=
  List.foldl_append ..

theorem ids_put (fleet : Fleet) (run : Run) :
    (fleet.put run).runs.map Run.id = fleet.runs.map Run.id := by
  simp only [put, List.map_map]
  refine List.map_congr_left fun r _ => ?_
  by_cases hr : r.id = run.id <;> simp [hr]

/-- Nobody comes or goes in a play. -/
theorem ids_act (fleet : Fleet) (a : Act) :
    (fleet.act a).runs.map Run.id = fleet.runs.map Run.id := by
  cases a with
  | outside op => rfl
  | turn id t =>
    cases hrun : fleet.run? id with
    | none => rw [act_turn_of_none hrun]
    | some run =>
      cases t with
      | attach =>
        simp only [act, perform, hrun, Fleet.attach]
        split
        · split <;> exact ids_put ..
        · rfl
      | signal s =>
        simp only [act, perform, hrun]
        exact ids_put ..
      | look =>
        simp only [act, hrun]
        exact ids_put ..

theorem ids_play (fleet : Fleet) (acts : List Act) :
    (fleet.play acts).runs.map Run.id = fleet.runs.map Run.id := by
  induction acts generalizing fleet with
  | nil => rfl
  | cons a rest ih => exact (ih (fleet.act a)).trans (fleet.ids_act a)

section Settling

variable {hub : Hub} {opened : Nat} {before after : List Run} {run : Run}

theorem run?_middle (hd : ((before ++ run :: after).map Run.id).Nodup) :
    (Fleet.mk hub opened (before ++ run :: after)).run? run.id = some run := by
  have hnone : before.find? (·.id == run.id) = none := by
    rw [List.find?_eq_none]
    intro r hr he
    simp only [List.map_append, List.map_cons, List.nodup_append] at hd
    exact hd.2.2 _ (List.mem_map_of_mem hr) _ List.mem_cons_self (by simpa using he)
  simp [run?, List.find?_append, hnone]

theorem put_middle (hd : ((before ++ run :: after).map Run.id).Nodup) {run' : Run}
    (hid : run'.id = run.id) :
    (Fleet.mk hub opened (before ++ run :: after)).put run' =
      Fleet.mk hub opened (before ++ run' :: after) := by
  simp only [List.map_append, List.map_cons, List.nodup_append, List.nodup_cons, List.mem_map,
    List.mem_cons] at hd
  have hothers {runs : List Run} (h : ∀ r ∈ runs, r.id ≠ run.id) :
      runs.map (fun other => if other.id = run'.id then run' else other) = runs := by
    conv_rhs => rw [← List.map_id runs]
    exact List.map_congr_left fun r hr => if_neg (hid ▸ h r hr)
  have hbefore := hothers (show ∀ r ∈ before, r.id ≠ run.id from
    fun r hr => hd.2.2 r.id ⟨r, hr, rfl⟩ run.id (.inl rfl))
  have hafter := hothers (show ∀ r ∈ after, r.id ≠ run.id from
    fun r hr he => hd.2.1.1 ⟨r, hr, he⟩)
  rw [put, List.map_append, List.map_cons, hbefore, hafter, if_pos hid.symm]

/-- The looks of one run in a fleet. -/
theorem play_looks (hub : Hub) (opened : Nat)
    (hd : ((before ++ run :: after).map Run.id).Nodup) (n : Nat) :
    (Fleet.mk hub opened (before ++ run :: after)).play (.replicate n (.turn run.id .look)) =
      ⟨(Run.lookOnce^[n] (hub, run)).1, opened,
        before ++ (Run.lookOnce^[n] (hub, run)).2 :: after⟩ := by
  induction n generalizing hub run with
  | zero => rfl
  | succ n ih =>
    have hid : (run.look hub).2.id = run.id := Run.lookOnce_id (hub, run)
    have hact : (Fleet.mk hub opened (before ++ run :: after)).act (.turn run.id .look) =
        ⟨(run.look hub).1, opened, before ++ (run.look hub).2 :: after⟩ := by
      simp only [act, run?_middle hd]
      exact put_middle hd hid
    have hd' : ((before ++ (run.look hub).2 :: after).map Run.id).Nodup := by
      simpa [hid] using hd
    have hrest := ih (run.look hub).1 hd'
    rw [hid] at hrest
    rw [List.replicate_succ, play, List.foldl_cons, hact, Function.iterate_succ_apply]
    exact hrest

theorem release_id (hub : Hub) (run : Run) (effects : List Effect) :
    (release hub run effects).2.id = run.id := by
  unfold release
  split
  · rfl
  · split <;> rfl

theorem settleRun_id (hub : Hub) (run : Run) : (settleRun hub run).2.id = run.id := by
  unfold settleRun
  split
  · exact release_id ..
  · rfl

/-- One run reads all, before the others of the fleet. -/
theorem exists_play_settleRun {rest : List Run}
    (h : (Fleet.mk hub opened (before ++ run :: rest)).InOrder)
    (hd : ((before ++ run :: rest).map Run.id).Nodup) :
    ∃ n, Fleet.mk (settleRun hub run).1 opened ((before ++ [(settleRun hub run).2]) ++ rest) =
      (Fleet.mk hub opened (before ++ run :: rest)).play (.replicate n (.turn run.id .look)) := by
  obtain ⟨n, hn⟩ := (h.bound run.id run (run?_middle hd)).exists_looks h.sound
  refine ⟨n, ?_⟩
  rw [play_looks hub opened hd n, ← hn]
  simp

/-- **Runs that read all, one after the other, play.** -/
theorem exists_play_settleAll (before todo : List Run) {hub : Hub}
    (h : (Fleet.mk hub opened (before ++ todo)).InOrder)
    (hd : ((before ++ todo).map Run.id).Nodup) :
    ∃ acts, Fleet.mk (settleAll hub todo).1 opened (before ++ (settleAll hub todo).2) =
      (Fleet.mk hub opened (before ++ todo)).play acts ∧
      ∀ a ∈ acts, ∃ run ∈ todo, a = .turn run.id .look := by
  induction todo generalizing hub before with
  | nil => exact ⟨[], rfl, by simp⟩
  | cons run rest ih =>
    obtain ⟨n, hfirst⟩ := exists_play_settleRun h hd
    obtain ⟨acts, hacts, hlooks⟩ := ih _ (hfirst ▸ h.play _)
      (by simpa [settleRun_id] using hd)
    refine ⟨.replicate n (.turn run.id .look) ++ acts, ?_, fun a ha => ?_⟩
    · rw [play_append, ← hfirst, ← hacts]
      simp [settleAll]
    · rcases List.mem_append.1 ha with ha | ha
      · exact ⟨run, List.mem_cons_self, List.eq_of_mem_replicate ha⟩
      · obtain ⟨other, hother, rfl⟩ := hlooks a ha
        exact ⟨other, List.mem_cons_of_mem run hother, rfl⟩

end Settling

variable {fleet : Fleet}

theorem exists_play_settle (h : fleet.InOrder) (hd : (fleet.runs.map Run.id).Nodup) :
    ∃ acts, fleet.settle = fleet.play acts ∧ ∀ a ∈ acts, ∃ id, a = .turn id .look := by
  obtain ⟨acts, hacts, hlooks⟩ := exists_play_settleAll [] fleet.runs h hd
  refine ⟨acts, hacts, fun a ha => ?_⟩
  obtain ⟨run, -, rfl⟩ := hlooks a ha
  exact ⟨run.id, rfl⟩

theorem ids_settle (h : fleet.InOrder) (hd : (fleet.runs.map Run.id).Nodup) :
    fleet.settle.runs.map Run.id = fleet.runs.map Run.id := by
  obtain ⟨acts, hacts, -⟩ := exists_play_settle h hd
  rw [hacts, ids_play]

theorem nodup_ids_launched (hub : Hub) (ceremonies : List Ceremony) :
    ((launched hub ceremonies).runs.map Run.id).Nodup := by
  have hids : (launched hub ceremonies).runs.map Run.id = ceremonies.zipIdx.map Prod.snd := by
    rw [(launched_hub_runs hub ceremonies).2, List.map_map]
    rfl
  rw [hids, List.zipIdx_map_snd]
  exact List.nodup_range'

/-- The input tells a run nothing that its subscription tells. -/
def Input.IsPlain : Input → Prop
  | .outside _ => True
  | .attach _ => True
  | .event _ e => ∃ s : Signal, s.event = e

/-- What others do in an input. -/
def Input.outsides : Input → List Outside
  | .outside ops => ops
  | .attach _ => []
  | .event _ _ => []

theorem perform_outside (fleet : Fleet) (ops : List Outside) :
    (fleet.perform (.outside ops)).2 = fleet.play (ops.map .outside) := by
  induction ops generalizing fleet with
  | nil => rfl
  | cons op rest ih => exact ih (fleet.act (.outside op))

theorem exists_play_perform (fleet : Fleet) {input : Input} (h : input.IsPlain) :
    ∃ acts, (fleet.perform input).2 = fleet.play acts ∧
      ∀ op, .outside op ∈ acts → op ∈ input.outsides := by
  cases input with
  | attach id => exact ⟨[.turn id .attach], rfl, by simp⟩
  | event id e =>
    obtain ⟨s, rfl⟩ := h
    exact ⟨[.turn id (.signal s)], rfl, by simp⟩
  | outside ops => exact ⟨ops.map .outside, perform_outside fleet ops, by simp [Input.outsides]⟩

/-- An input is a play, in which others do what they do in the input. -/
theorem exists_play_step (h : fleet.InOrder) (hd : (fleet.runs.map Run.id).Nodup) {input : Input}
    (hin : input.IsPlain) :
    ∃ acts, (fleet.step input).2 = fleet.play acts ∧
      ∀ op, .outside op ∈ acts → op ∈ input.outsides := by
  obtain ⟨first, hfirst, houtside⟩ := fleet.exists_play_perform hin
  obtain ⟨reads, hreads, hlooks⟩ := exists_play_settle (h.play first) (by rwa [ids_play])
  refine ⟨first ++ reads, ?_, fun op hop => ?_⟩
  · rw [play_append, ← hreads, ← hfirst]
    rfl
  · rcases List.mem_append.1 hop with hop | hop
    · exact houtside op hop
    · obtain ⟨id, hlook⟩ := hlooks _ hop
      cases hlook

/-- An input keeps a fleet in order, before anyone reads and after. -/
theorem InOrder.perform (h : fleet.InOrder) {input : Input} (hin : input.IsPlain) :
    (fleet.perform input).2.InOrder := by
  obtain ⟨acts, hacts, -⟩ := fleet.exists_play_perform hin
  exact hacts ▸ h.play acts

theorem ids_perform (fleet : Fleet) {input : Input} (hin : input.IsPlain) :
    (fleet.perform input).2.runs.map Run.id = fleet.runs.map Run.id := by
  obtain ⟨acts, hacts, -⟩ := fleet.exists_play_perform hin
  exact (congrArg (fun fleet => fleet.runs.map Run.id) hacts).trans (fleet.ids_play acts)

theorem InOrder.step (h : fleet.InOrder) (hd : (fleet.runs.map Run.id).Nodup) {input : Input}
    (hin : input.IsPlain) : (fleet.step input).2.InOrder := by
  obtain ⟨acts, hacts, -⟩ := exists_play_step h hd hin
  exact hacts ▸ h.play acts

theorem nodup_ids_step (h : fleet.InOrder) (hd : (fleet.runs.map Run.id).Nodup) {input : Input}
    (hin : input.IsPlain) : ((fleet.step input).2.runs.map Run.id).Nodup := by
  obtain ⟨acts, hacts, -⟩ := exists_play_step h hd hin
  rwa [hacts, ids_play]

/-- **Inputs are plays**, in which others do what they do in the inputs. -/
theorem exists_play_steps (h : fleet.InOrder) (hd : (fleet.runs.map Run.id).Nodup)
    {inputs : List Input} (hin : ∀ input ∈ inputs, input.IsPlain) :
    ∃ acts, fleet.steps inputs = fleet.play acts ∧
      ∀ op, .outside op ∈ acts → ∃ input ∈ inputs, op ∈ input.outsides := by
  induction inputs generalizing fleet with
  | nil => exact ⟨[], rfl, by simp⟩
  | cons input rest ih =>
    obtain ⟨first, hfirst, houtside⟩ := exists_play_step h hd (hin input List.mem_cons_self)
    obtain ⟨acts, hacts, hlater⟩ := ih (h.play first) (by rwa [ids_play])
      fun later hlater => hin later (List.mem_cons_of_mem input hlater)
    refine ⟨first ++ acts, by rw [play_append, ← hacts, ← hfirst]; rfl, fun op hop => ?_⟩
    rcases List.mem_append.1 hop with hop | hop
    · exact ⟨input, List.mem_cons_self, houtside op hop⟩
    · obtain ⟨later, hmem, hop⟩ := hlater op hop
      exact ⟨later, List.mem_cons_of_mem input hmem, hop⟩

/-- Ceremonies that take inputs leave no receiver behind. -/
theorem subscriberCount_steps_of_finished {hub : Hub} (hs : hub.Sound) {ceremonies : List Ceremony}
    (hd : (ceremonies.map Ceremony.channel).Nodup) {id : Nat} {c : Ceremony}
    (hc : ceremonies[id]? = some c) {inputs : List Input}
    (hin : ∀ input ∈ inputs, input.IsPlain ∧ .close c.channel.name ∉ input.outsides) {run : Run}
    (h : ((launched hub ceremonies).steps inputs).run? id = some run)
    (hover : run.phase.outcome?.isSome = true) :
    ((launched hub ceremonies).steps inputs).hub.subscriberCount c.channel.name =
      hub.subscriberCount c.channel.name := by
  obtain ⟨acts, hacts, houtside⟩ := exists_play_steps (inOrder_launched hs hd)
    (nodup_ids_launched hub ceremonies) fun input hinput => (hin input hinput).1
  rw [hacts] at h ⊢
  refine subscriberCount_of_finished hs hd hc (fun hclose => ?_) h hover
  obtain ⟨input, hinput, hop⟩ := houtside _ hclose
  exact (hin input hinput).2 hop

end Fleet

end Custody
