import Custody.Proofs.Ceremony.Outcome
import Custody.Proofs.Client.Inbox
import Custody.Proofs.Fleet.Release
/-!
# Sockets that break

A ceremony behind a socket reads what the peer sends (`Inbox.heard`) and ends at a time
(`Ceremony.ending?`). A socket that is closed, or fails, or is over, before a complete result has
come ends the wait at once, whatever the peer sends after that (`socket_frames`).

A ceremony that subscribes first does not look at its socket while the trigger is on its way: then
the end of the stream is noticed when the trigger is acknowledged, and if that never happens the
ceremony ends as one whose trigger failed (`triggerFailed_on_closed_socket`).

* `Inbox.heard_of_end`: what one finds who looks at a socket whenever something comes.
* `Ceremony.ending?_schedule`: a ceremony that waits ends as the wait does, and when it does.
* `Call.told?_of_toldAt?`: what a caller is told at some time is what the caller is told in the end.
-/

namespace Custody

open Ceremony (Event Phase Outcome)

/-! ## Reading as things come -/

namespace Client.Inbox

theorem length_next {inbox : Inbox} {message : String} {later : Inbox}
    (h : inbox.next = (.payload message, later)) : later.frames.length < inbox.frames.length := by
  fun_induction next inbox with
  | case1 => cases h
  | case2 => cases h
  | case3 inbox rest frame hpull message hmessage =>
    cases h
    exact length_pull hpull
  | case4 inbox rest frame hpull hmessage ih => exact Nat.lt_trans (ih h) (length_pull hpull)

/-- What one finds who looks from `now` on until nothing is there, and again whenever something has
come, up to the end of the stream. -/
def heard (inbox : Inbox) (now : Nat) (coming : List (Nat × Arrival)) : List (Nat × StreamEvent) :=
  match _hnext : inbox.next with
  | (.payload message, later) => (now, .message message) :: later.heard now coming
  | (.ended, _) => [(now, .ended)]
  | (.nothing, later) =>
    match coming with
    | [] => []
    | (time, arrival) :: rest => (later.add arrival).heard (max now time) rest
termination_by (coming.length, inbox.frames.length)
decreasing_by
  · exact Prod.Lex.right _ (length_next ‹_›)
  · exact Prod.Lex.left _ _ (Nat.lt_succ_self _)

theorem le_of_mem_heard {inbox : Inbox} {now : Nat} {coming : List (Nat × Arrival)} :
    ∀ q ∈ inbox.heard now coming, now ≤ q.1 := by
  fun_induction heard inbox now coming with
  | case1 inbox now coming message later hnext ih => simpa using ih
  | case2 => simp
  | case3 => simp
  | case4 inbox now later hnext time arrival rest ih =>
    exact fun q hq => Nat.le_trans (Nat.le_max_left now time) (ih q hq)

/-- The messages in what comes, at the times at which one who looks from `now` on reads them. -/
def timed (now : Nat) (coming : List (Nat × Arrival)) : List (Nat × String) :=
  coming.filterMap fun q => q.2.message?.map (max now q.1, ·)

/-- It does not matter when one starts to look, as long as nothing has come by then. -/
theorem timed_max {now time : Nat} {coming : List (Nat × Arrival)} (h : ∀ q ∈ coming, time ≤ q.1) :
    timed (max now time) coming = timed now coming := by
  induction coming with
  | nil => rfl
  | cons q rest ih =>
    have hq : max (max now time) q.1 = max now q.1 := by
      have := h q List.mem_cons_self
      omega
    have hrest := ih fun r hr => h r (List.mem_cons_of_mem q hr)
    simp only [timed] at hrest
    simp only [timed, List.filterMap_cons, hq, hrest]

/-- One who reads a stream that has its end finds all of it at once. -/
theorem heard_of_ends {inbox : Inbox} (h : inbox.ends = true) (now : Nat)
    (coming : List (Nat × Arrival)) :
    inbox.heard now coming = streamEvents (inbox.messages.map (now, ·)) (some now) := by
  fun_induction heard inbox now coming with
  | case1 inbox now coming message later hnext ih =>
    obtain ⟨hm, he⟩ := messages_of_payload hnext
    rw [ih (he.trans h), hm]
    rfl
  | case2 inbox now coming later hnext =>
    rw [(messages_of_ended hnext).1]
    rfl
  | case3 inbox now later hnext =>
    rw [(messages_of_nothing hnext).2.1] at h
    cases h
  | case4 inbox now later hnext time arrival rest ih =>
    rw [(messages_of_nothing hnext).2.1] at h
    cases h

/-- One who reads a stream whose end is still to come finds each message when it comes, and then the
end. -/
theorem heard_of_end {inbox : Inbox} (h : inbox.ends = false) {now time : Nat} {arrival : Arrival}
    {before after : List (Nat × Arrival)}
    (hs : ((before ++ (time, arrival) :: after).map Prod.fst).Pairwise (· ≤ ·))
    (hopen : ∀ q ∈ before, q.2.endsStream = false) (hend : arrival.endsStream = true) :
    inbox.heard now (before ++ (time, arrival) :: after) =
      streamEvents (inbox.messages.map (now, ·) ++ timed now before) (some (max now time)) := by
  generalize hcoming : before ++ (time, arrival) :: after = coming
  fun_induction heard inbox now coming generalizing before with
  | case1 inbox now coming message later hnext ih =>
    obtain ⟨hm, he⟩ := messages_of_payload hnext
    rw [ih (he.trans h) hs hopen hcoming, hm]
    rfl
  | case2 inbox now coming later hnext =>
    rw [(messages_of_ended hnext).2] at h
    cases h
  | case3 inbox now later hnext => simp at hcoming
  | case4 inbox now later hnext t a rest ih =>
    obtain ⟨hm, -, hm', he'⟩ := messages_of_nothing hnext
    obtain ⟨hadd, hends⟩ := add_of_not_ends he' a
    rw [hm'] at hadd
    cases before with
    | nil =>
      obtain ⟨⟨rfl, rfl⟩, rfl⟩ : (time = t ∧ arrival = a) ∧ after = rest := by simpa using hcoming
      rw [heard_of_ends (hends.trans hend), hadd, hm]
      simp [Arrival.messages, hend, timed]
    | cons first before =>
      obtain ⟨rfl, rfl⟩ := List.cons.inj hcoming
      rw [List.cons_append, List.map_cons, List.pairwise_cons] at hs
      have hle : ∀ q ∈ before ++ (time, arrival) :: after, t ≤ q.1 := fun q hq =>
        hs.1 q.1 (List.mem_map_of_mem hq)
      have hclosed : a.endsStream = false := hopen (t, a) List.mem_cons_self
      have htime : max (max now t) time = max now time := by
        have := hle (time, arrival) (by simp)
        omega
      have hfirst : timed now ((t, a) :: before) =
          a.message?.toList.map (max now t, ·) ++ timed now before := by
        cases hmessage : a.message? <;> simp [timed, hmessage]
      rw [ih (hends.trans hclosed) hs.2 (fun q hq => hopen q (List.mem_cons_of_mem _ hq)) rfl, hadd,
        hm, htime, timed_max fun q hq => hle q (List.mem_append_left _ hq), hfirst,
        Arrival.messages_singleton hclosed]
      rfl

end Client.Inbox

/-! ## When ceremonies end -/

/-- Timed events with the deadline at its place, after all that happens at the same time. -/
def schedule (deadline : Nat) (events : List (Nat × Event)) : List (Nat × Event) :=
  events.filter (·.1 ≤ deadline) ++ (deadline, .deadline) :: events.filter (deadline < ·.1)

theorem schedule_cons {deadline time : Nat} {event : Event} {rest : List (Nat × Event)}
    (h : time ≤ deadline) :
    schedule deadline ((time, event) :: rest) = (time, event) :: schedule deadline rest := by
  simp [schedule, h, Nat.not_lt.2 h]

theorem schedule_of_late {deadline : Nat} {events : List (Nat × Event)}
    (h : ∀ q ∈ events, deadline < q.1) :
    schedule deadline events = (deadline, .deadline) :: events := by
  have hnone : events.filter (·.1 ≤ deadline) = [] := by
    rw [List.filter_eq_nil_iff]
    intro q hq
    simpa using h q hq
  have hall : events.filter (deadline < ·.1) = events := by
    rw [List.filter_eq_self]
    intro q hq
    simpa using h q hq
  rw [schedule, hnone, hall]
  rfl

namespace Ceremony

/-- How a ceremony ends in the course of timed events, and when. -/
def ending? (c : Ceremony) (phase : Phase) : List (Nat × Event) → Option (Outcome × Nat)
  | [] => none
  | (time, event) :: rest =>
    match (c.step phase event).1.outcome? with
    | some outcome => some (outcome, time)
    | none => c.ending? (c.step phase event).1 rest

/-- A ceremony that ends has that end at last. -/
theorem run_of_ending? {c : Ceremony} {phase : Phase} {events : List (Nat × Event)}
    {outcome : Outcome} {time : Nat} (h : c.ending? phase events = some (outcome, time)) :
    (c.run phase (events.map Prod.snd)).1 = .finished outcome := by
  induction events generalizing phase with
  | nil => cases h
  | cons q rest ih =>
    rw [ending?] at h
    rw [List.map_cons, run_cons]
    cases ho : (c.step phase q.2).1.outcome? with
    | none =>
      rw [ho] at h
      exact ih h
    | some last =>
      rw [ho] at h
      cases h
      rw [Phase.outcome?_eq_some_iff.1 ho, run_finished]

/-- **A ceremony that waits ends as the wait does, and when it does.** -/
theorem ending?_schedule (c : Ceremony) (deadline : Nat) {events : List (Nat × StreamEvent)}
    (hs : (events.map Prod.fst).Pairwise (· ≤ ·)) :
    c.ending? .waiting (schedule deadline (events.map fun q => (q.1, q.2.toEvent))) =
      some (.returned (Wait.run c.channel deadline events).1,
        (Wait.run c.channel deadline events).2) := by
  induction events with
  | nil => rfl
  | cons q rest ih =>
    obtain ⟨time, event⟩ := q
    rw [List.map_cons, List.pairwise_cons] at hs
    by_cases hd : deadline < time
    · -- everything comes after the deadline
      have hlate : ∀ e ∈ (time, event) :: rest, deadline < e.1 := by
        intro e he
        rcases List.mem_cons.1 he with rfl | he
        · exact hd
        · exact Nat.lt_of_lt_of_le hd (hs.1 e.1 (List.mem_map_of_mem he))
      rw [schedule_of_late (List.forall_mem_map.2 hlate), Wait.run_of_late hlate]
      rfl
    · rw [List.map_cons, schedule_cons (Nat.not_lt.1 hd), ending?, step_waiting, Wait.run,
        if_neg hd, afterWait]
      cases hw : Wait.step c.channel.purpose .awaiting event with
      | awaiting => simpa [Wait.isOver, Phase.outcome?] using ih hs.2
      | _ => simp [Wait.isOver, Phase.outcome?]

end Ceremony

/-! ## Calls behind sockets -/

namespace Client

/-- What a call meets whose subscription is a socket, with times. -/
structure Exchange where
  deadline : Nat
  /-- The socket is open. -/
  opened : Nat
  /-- The control plane answers the trigger, perhaps with an error. -/
  answer : Option (Nat × Option Error)
  /-- What comes over the socket. -/
  arrivals : List (Nat × Arrival)
  sorted : (opened :: arrivals.map Prod.fst).Pairwise (· ≤ ·)

namespace Exchange

variable {x : Exchange} {start time : Nat} {arrival : Arrival} {before after : List (Nat × Arrival)}

/-- What one finds who looks at the socket from `start` on, when some of it has come before. -/
def heardFrom (x : Exchange) (start : Nat) : List (Nat × StreamEvent) :=
  ((x.arrivals.takeWhile (·.1 ≤ start)).foldl (fun inbox q => inbox.add q.2) Inbox.opened).heard
    start (x.arrivals.dropWhile (·.1 ≤ start))

/-- The same, as the events of a ceremony. -/
def read (x : Exchange) (start : Nat) : List (Nat × Event) :=
  (x.heardFrom start).map fun q => (q.1, q.2.toEvent)

/-- What happens to the call but for its deadline. One who subscribes first looks at the socket when
the trigger has been acknowledged, and one who sends the trigger first when the socket is open. -/
def happenings (x : Exchange) (subscribeFirst : Bool) : List (Nat × Event) :=
  if subscribeFirst then
    (x.opened, .attached) ::
      match x.answer with
      | none => []
      | some (time, some e) => [(time, .refused e)]
      | some (time, none) => (time, .acknowledged) :: x.read time
  else
    match x.answer with
    | none => []
    | some (time, some e) => [(time, .refused e)]
    | some (time, none) => (time, .acknowledged) :: (x.opened, .attached) :: x.read x.opened

/-- What happens to the call. -/
def events (x : Exchange) (subscribeFirst : Bool) : List (Nat × Event) :=
  schedule x.deadline (x.happenings subscribeFirst)

/-- The stream of messages ends at this time: so far came only what does not end it, and no message
in it carries a result for the purpose. -/
def Breaks (x : Exchange) (purpose : Purpose) (time : Nat) : Prop :=
  ∃ before arrival after, x.arrivals = before ++ (time, arrival) :: after ∧
    arrival.endsStream = true ∧ ∀ q ∈ before, q.2.endsStream = false ∧
      ∀ text, q.2.message? = some text → Noise purpose text

theorem timed_of_le {coming : List (Nat × Arrival)} (hle : ∀ q ∈ coming, q.1 ≤ start)
    (hopen : ∀ q ∈ coming, q.2.endsStream = false) :
    Inbox.timed start coming = (Arrival.messages (coming.map Prod.snd)).map (start, ·) := by
  induction coming with
  | nil => rfl
  | cons q rest ih =>
    have hrest := ih (fun r hr => hle r (List.mem_cons_of_mem q hr))
      fun r hr => hopen r (List.mem_cons_of_mem q hr)
    have hq : max start q.1 = start := Nat.max_eq_left (hle q List.mem_cons_self)
    have hclosed : q.2.endsStream = false := hopen q List.mem_cons_self
    simp only [Inbox.timed] at hrest
    cases hmessage : q.2.message? <;>
      simp [Inbox.timed, Arrival.messages, hclosed, hmessage, hq, hrest]

/-- An element that fails a test cuts a list where the test cuts it, or earlier. -/
theorem span_append_cons {α : Type} {p : α → Bool} {l r : List α} {a : α} (h : p a = false) :
    (l ++ a :: r).takeWhile p = l.takeWhile p ∧
      (l ++ a :: r).dropWhile p = l.dropWhile p ++ a :: r := by
  induction l with
  | nil => simp [h]
  | cons b l ih =>
    cases hb : p b with
    | true => simpa [hb] using ih
    | false => simp [hb]

/-- **What one finds of a stream that ends**: its messages up to the end, each when it has come and
one looks, and then the end. -/
theorem heardFrom_of_end (ha : x.arrivals = before ++ (time, arrival) :: after)
    (hopen : ∀ q ∈ before, q.2.endsStream = false) (hend : arrival.endsStream = true) :
    x.heardFrom start = streamEvents (Inbox.timed start before) (some (max start time)) := by
  have hs := (List.pairwise_cons.1 x.sorted).2
  rw [ha] at hs
  have hle : ∀ q ∈ before, q.1 ≤ time := by
    rw [List.map_append, List.map_cons, List.pairwise_append] at hs
    exact fun q hq => hs.2.2 q.1 (List.mem_map_of_mem hq) time List.mem_cons_self
  rw [heardFrom, ha]
  by_cases ht : time ≤ start
  · -- the end has come before the first look
    have hearly : ∀ q ∈ before, q.1 ≤ start := fun q hq => Nat.le_trans (hle q hq) ht
    have htake : (before ++ (time, arrival) :: after).takeWhile (·.1 ≤ start) =
        before ++ (time, arrival) :: after.takeWhile (·.1 ≤ start) := by
      rw [List.takeWhile_append_of_pos (by simpa using hearly),
        List.takeWhile_cons_of_pos (by simpa)]
    have hholds := Inbox.Holds.opened.foldl
      (before ++ (time, arrival) :: after.takeWhile (·.1 ≤ start))
    rw [List.nil_append, List.map_append, List.map_cons] at hholds
    rw [htake, Inbox.heard_of_ends (hholds.ends.trans (by simp [hend])),
      ← List.nil_append (Inbox.messages _), hholds.messages, Arrival.messages_append_end hend,
      ← timed_of_le hearly hopen, Nat.max_eq_left ht]
  · -- the end comes after the first look
    obtain ⟨early, late, rfl, htake, hdrop⟩ : ∃ early late, before = early ++ late ∧
        (before ++ (time, arrival) :: after).takeWhile (·.1 ≤ start) = early ∧
        (before ++ (time, arrival) :: after).dropWhile (·.1 ≤ start) =
          late ++ (time, arrival) :: after := by
      have hcut := span_append_cons (l := before) (r := after) (a := (time, arrival))
        (p := (·.1 ≤ start)) (by simpa using ht)
      exact ⟨_, _, List.takeWhile_append_dropWhile.symm, hcut.1, hcut.2⟩
    have hearly : ∀ q ∈ early, q.1 ≤ start := by
      rw [← htake]
      exact fun q hq => by simpa using List.mem_takeWhile_imp hq
    have hopen' : ∀ q ∈ early, q.2.endsStream = false := fun q hq =>
      hopen q (List.mem_append_left _ hq)
    have hholds := Inbox.Holds.opened.foldl early
    rw [List.nil_append] at hholds
    have hends : (early.foldl (fun inbox q => inbox.add q.2) Inbox.opened).ends = false := by
      rw [hholds.ends]
      simpa using hopen'
    rw [List.append_assoc, List.map_append, List.pairwise_append] at hs
    rw [htake, hdrop, Inbox.heard_of_end hends hs.2.1
      (fun q hq => hopen q (List.mem_append_right _ hq)) hend, ← List.nil_append (Inbox.messages _),
      hholds.messages, ← timed_of_le hearly hopen', Inbox.timed, Inbox.timed, Inbox.timed,
      List.filterMap_append]

theorem sorted_timed (hs : ((before ++ [(time, arrival)]).map Prod.fst).Pairwise (· ≤ ·)) :
    ((Inbox.timed start before).map Prod.fst ++ (some (max start time)).toList).Pairwise
      (· ≤ ·) := by
  rw [List.map_append, List.pairwise_append, List.pairwise_map] at hs
  obtain ⟨hbefore, -, hle⟩ := hs
  rw [List.pairwise_append, List.pairwise_map, Inbox.timed, List.pairwise_filterMap]
  refine ⟨hbefore.imp ?_, by simp, ?_⟩
  · intro q r hqr b hb c hc
    obtain ⟨-, -, rfl⟩ := Option.map_eq_some_iff.1 hb
    obtain ⟨-, -, rfl⟩ := Option.map_eq_some_iff.1 hc
    omega
  · intro t ht last hlast
    obtain rfl : last = max start time := by simpa using hlast
    obtain ⟨b, hb, rfl⟩ := List.mem_map.1 ht
    obtain ⟨q, hq, hqb⟩ := List.mem_filterMap.1 hb
    obtain ⟨-, -, rfl⟩ := Option.map_eq_some_iff.1 hqb
    have := hle q.1 (List.mem_map_of_mem hq) time (by simp)
    omega

/-- What one finds of a stream that ends is in order. -/
theorem sorted_heardFrom {purpose : Purpose} (h : x.Breaks purpose time) (start : Nat) :
    ((x.heardFrom start).map Prod.fst).Pairwise (· ≤ ·) := by
  obtain ⟨before, arrival, after, ha, hend, hbefore⟩ := h
  have hs := (List.pairwise_cons.1 x.sorted).2
  rw [ha, ← List.singleton_append, ← List.append_assoc, List.map_append,
    List.pairwise_append] at hs
  rw [heardFrom_of_end ha (fun q hq => (hbefore q hq).1) hend, map_fst_streamEvents]
  exact sorted_timed hs.1

/-- **A wait on a socket that breaks** is closed when the stream ends, or when one looks. -/
theorem run_heardFrom {key : ChannelKey} (h : x.Breaks key.purpose time)
    (hstart : start ≤ x.deadline) (htime : time ≤ x.deadline) :
    Wait.run key x.deadline (x.heardFrom start) =
      (.error (.channelClosed key.name), max start time) := by
  have hsorted := sorted_heardFrom h start
  obtain ⟨before, arrival, after, ha, hend, hbefore⟩ := h
  rw [heardFrom_of_end ha (fun q hq => (hbefore q hq).1) hend] at hsorted ⊢
  rw [map_fst_streamEvents] at hsorted
  refine Wait.run_of_ended hsorted ?_ (Nat.max_le.2 ⟨hstart, htime⟩)
  intro b hb
  obtain ⟨q, hq, hqb⟩ := List.mem_filterMap.1 hb
  obtain ⟨text, htext, rfl⟩ := Option.map_eq_some_iff.1 hqb
  exact noise_iff.1 ((hbefore q hq).2 text htext)

/-- A ceremony that waits on a socket that breaks ends when the stream ends, or when it looks. -/
theorem ending?_read {c : Ceremony} (h : x.Breaks c.channel.purpose time)
    (hstart : start ≤ x.deadline) (htime : time ≤ x.deadline) :
    c.ending? .waiting (schedule x.deadline (x.read start)) =
      some (.returned (.error (.channelClosed c.channel.name)), max start time) := by
  rw [read, c.ending?_schedule x.deadline (sorted_heardFrom h start),
    run_heardFrom h hstart htime]

/-- A socket breaks when it is open. -/
theorem Breaks.opened_le {purpose : Purpose} (h : x.Breaks purpose time) : x.opened ≤ time := by
  obtain ⟨before, arrival, after, ha, -⟩ := h
  exact (List.pairwise_cons.1 x.sorted).1 time (by simp [ha])

end Exchange

end Client

namespace Call

open Ceremony Client

variable {config : Config} {call : Call} {request : ActionRequest} {x : Exchange} {time : Nat}

/-- What the caller is told in the course of timed events, and when. -/
def toldAt? (config : Config) (call : Call) (events : List (Nat × Event)) :
    Option (Except Error Answer × Nat) :=
  match call.request config,
    (call.ceremony config).ending? (call.ceremony config).start.1 events with
  | .ok _, some (.returned result, time) => some (result >>= call.conclude, time)
  | _, _ => none

/-- What a caller is told at some time is what the caller is told in the end. -/
theorem told?_of_toldAt? {events : List (Nat × Event)} {answer : Except Error Answer}
    (h : call.toldAt? config events = some (answer, time)) :
    call.told? config (events.map Prod.snd) = some answer := by
  unfold toldAt? at h
  split at h
  · next request result last hr hending =>
    cases h
    have hrun := run_of_ending? hending
    simp only [told?, course, hr, hrun]
  · cases h

/-- The error of a ceremony is told as it is. -/
theorem toldAt?_of_error {events : List (Nat × Event)} {e : Error}
    (hr : call.request config = .ok request)
    (h : (call.ceremony config).ending? (call.ceremony config).start.1 events =
      some (.returned (.error e), time)) :
    call.toldAt? config events = some (.error e, time) := by
  simp only [toldAt?, hr, h]
  rfl

/-- A call that sends its trigger first ends when its socket breaks. -/
theorem toldAt?_of_triggerFirst (hr : call.request config = .ok request)
    (hc : config.subscribeFirst = false) (h : x.Breaks call.purpose time) (ht : time < x.deadline)
    {answered : Nat} (ha : x.answer = some (answered, none)) (hle : answered ≤ x.opened) :
    call.toldAt? config (x.events config.subscribeFirst) =
      some (.error (.channelClosed call.channel.name), time) := by
  have hopened := h.opened_le
  have hevents : x.events config.subscribeFirst =
      (answered, .acknowledged) :: (x.opened, .attached) ::
        schedule x.deadline (x.read x.opened) := by
    rw [Exchange.events, Exchange.happenings, hc, if_neg (by decide), ha]
    rw [schedule_cons (by omega), schedule_cons (by omega)]
  have hwait := Exchange.ending?_read (c := call.ceremony config) h
    (Nat.le_of_lt (Nat.lt_of_le_of_lt hopened ht)) (Nat.le_of_lt ht)
  rw [Nat.max_eq_right hopened] at hwait
  refine toldAt?_of_error hr ?_
  rw [start_of_triggerFirst hc, hevents]
  exact hwait

/-- A call that subscribes first ends when its socket breaks, or else when its trigger is
acknowledged. -/
theorem toldAt?_of_acknowledged (hr : call.request config = .ok request)
    (hc : config.subscribeFirst = true) (h : x.Breaks call.purpose time) (ht : time < x.deadline)
    {answered : Nat} (ha : x.answer = some (answered, none)) (hle : answered ≤ x.deadline) :
    call.toldAt? config (x.events config.subscribeFirst) =
      some (.error (.channelClosed call.channel.name), max answered time) := by
  have hopened := h.opened_le
  have hevents : x.events config.subscribeFirst =
      (x.opened, .attached) :: (answered, .acknowledged) ::
        schedule x.deadline (x.read answered) := by
    rw [Exchange.events, Exchange.happenings, hc, if_pos rfl, ha]
    rw [schedule_cons (by omega), schedule_cons (by omega)]
  refine toldAt?_of_error hr ?_
  rw [start_of_subscribeFirst hc, hevents]
  exact Exchange.ending?_read (c := call.ceremony config) h hle (Nat.le_of_lt ht)

/-- A call that subscribes first has no ear for its socket while its trigger is on its way: it ends
when the trigger is refused. -/
theorem toldAt?_of_refused (hr : call.request config = .ok request)
    (hc : config.subscribeFirst = true) (hopened : x.opened ≤ x.deadline) {answered : Nat}
    {e : Error} (ha : x.answer = some (answered, some e)) (hle : answered ≤ x.deadline) :
    call.toldAt? config (x.events config.subscribeFirst) =
      some (.error ((call.ceremony config).triggerError e.message), answered) := by
  have hevents : x.events config.subscribeFirst =
      (x.opened, .attached) :: (answered, .refused e) :: schedule x.deadline [] := by
    rw [Exchange.events, Exchange.happenings, hc, if_pos rfl, ha]
    rw [schedule_cons hopened, schedule_cons hle]
  refine toldAt?_of_error hr ?_
  rw [start_of_subscribeFirst hc, hevents]
  rfl

/-- It ends at the deadline when the trigger has not been answered by then. -/
theorem toldAt?_of_unanswered (hr : call.request config = .ok request)
    (hc : config.subscribeFirst = true) (hopened : x.opened ≤ x.deadline)
    (ha : ∀ answered result, x.answer = some (answered, result) → x.deadline < answered) :
    call.toldAt? config (x.events config.subscribeFirst) =
      some (.error ((call.ceremony config).triggerError "deadline elapsed"), x.deadline) := by
  obtain ⟨rest, hevents⟩ : ∃ rest, x.events config.subscribeFirst =
      (x.opened, .attached) :: (x.deadline, .deadline) :: rest := by
    rw [Exchange.events, Exchange.happenings, hc, if_pos rfl, schedule_cons hopened]
    refine ⟨_, congrArg _ (schedule_of_late ?_)⟩
    cases hanswer : x.answer with
    | none => simp
    | some answer =>
      obtain ⟨answered, result⟩ := answer
      have hlate := ha answered result hanswer
      cases result with
      | some e => simpa using hlate
      | none =>
        refine List.forall_mem_cons.2 ⟨hlate, List.forall_mem_map.2 fun q hq => ?_⟩
        exact Nat.lt_of_lt_of_le hlate (Inbox.le_of_mem_heard q hq)
  refine toldAt?_of_error hr ?_
  rw [start_of_subscribeFirst hc, hevents]
  rfl

end Call

open Client

/-! ## Frames and calls -/

/-- The subscription of a client is the one over all frames of its peer. -/
theorem Client.SocketBroker.eq_of_subscribe {client : SocketBroker} {peer : FrameSender}
    {key : ChannelKey} {sub : Subscription} (h : (client.subscribe peer key).1 = .ok sub) :
    sub = .ofMessages key.name (Arrival.messages (peer.frames.map .sent ++ [.ended])) true := by
  rw [Arrival.messages_append_end rfl, Arrival.messages_map_sent]
  unfold subscribe at h
  split at h
  · cases h
  · split at h
    · cases h
    · split at h
      · cases h
      · exact (Except.ok.inj h).symm

/-- **The frames of a socket and the end of a call.** Whatever comes over a socket, and whenever its
reader looks, what is read is a beginning of the messages in what has come, and a look finds what
the subscription over the others finds; the client's own subscription is the one over all of them.
The messages are the texts of text frames and of the binary frames that are UTF-8, in order. Pings,
pongs and other binary frames could as well not have come, and nothing counts that comes after a
close frame, a failure or the end of the socket.

When a socket breaks before the deadline and no complete result has come before, the call ends then,
with a channel that is closed, whatever comes later. A call that subscribes first, and whose trigger
has not been answered by then, does so when the trigger is acknowledged before the deadline; when
the trigger is refused by the deadline, or not answered by it, it fails with its trigger. A trigger
that is acknowledged at the very deadline leaves both open: the call ends then, with a channel that
is closed or with a timeout. -/
theorem socket_frames :
    (∀ (turns : List Inbox.Turn) (channel : String),
      Inbox.payloads (Inbox.opened.play turns).1 <+:
        Arrival.messages (Inbox.Turn.arrivals turns) ∧
      (Inbox.opened.play turns).2.next.1 = (Subscription.ofMessages channel
        ((Arrival.messages (Inbox.Turn.arrivals turns)).drop
          (Inbox.payloads (Inbox.opened.play turns).1).length)
        ((Inbox.Turn.arrivals turns).any Arrival.endsStream)).next.1) ∧
    (∀ (client : SocketBroker) (peer : FrameSender) (key : ChannelKey) (sub : Subscription),
      (client.subscribe peer key).1 = .ok sub →
        sub = .ofMessages key.name (Arrival.messages (peer.frames.map .sent ++ [.ended])) true) ∧
    (∀ before after : List Arrival,
      (∀ text arrival, arrival = .sent (.text text) ∨ arrival = .sent (.binary text.toUTF8.toList) →
        (∀ arrival ∈ before, arrival.endsStream = false) →
        Arrival.messages (before ++ arrival :: after) =
          Arrival.messages before ++ text :: Arrival.messages after) ∧
      (∀ frame, Arrival.Skipped frame →
        Arrival.messages (before ++ .sent frame :: after) = Arrival.messages (before ++ after) ∧
        (before ++ .sent frame :: after).any Arrival.endsStream =
          (before ++ after).any Arrival.endsStream) ∧
      ∀ arrival, arrival = .sent .close ∨ arrival = .sent .failure ∨ arrival = .ended →
        Arrival.messages (before ++ arrival :: after) = Arrival.messages before) ∧
    ∀ (config : Config) (call : Call) (request : ActionRequest) (x : Exchange) (time : Nat),
      call.request config = .ok request → x.Breaks call.purpose time → time < x.deadline →
      (config.subscribeFirst = false →
        ∀ answered, x.answer = some (answered, none) → answered ≤ x.opened →
          call.toldAt? config (x.events config.subscribeFirst) =
            some (.error (.channelClosed call.channel.name), time)) ∧
      (config.subscribeFirst = true →
        (∀ answered, x.answer = some (answered, none) → answered < x.deadline →
          call.toldAt? config (x.events config.subscribeFirst) =
            some (.error (.channelClosed call.channel.name), max answered time)) ∧
        (x.answer = some (x.deadline, none) →
          ∃ e, (e = .channelClosed call.channel.name ∨ e = .timeout call.channel.name) ∧
            call.toldAt? config (x.events config.subscribeFirst) = some (.error e, x.deadline)) ∧
        (∀ answered e, x.answer = some (answered, some e) → answered ≤ x.deadline →
          call.toldAt? config (x.events config.subscribeFirst) =
            some (.error ((call.ceremony config).triggerError e.message), answered)) ∧
        ((∀ answered result, x.answer = some (answered, result) → x.deadline < answered) →
          call.toldAt? config (x.events config.subscribeFirst) =
            some (.error ((call.ceremony config).triggerError "deadline elapsed"),
              x.deadline))) := by
  refine ⟨fun turns channel => ?_, fun client peer key sub h => ?_, fun before after =>
    ⟨?_, ?_, ?_⟩, fun config call request x time hr h ht => ⟨fun hc answered ha hle => ?_, fun hc =>
      ⟨?_, ?_, ?_, ?_⟩⟩⟩
  · have hholds := Inbox.Holds.opened.play turns
    rw [List.nil_append, List.nil_append] at hholds
    exact ⟨⟨_, hholds.messages⟩, by rw [← hholds.subscription_eq, Inbox.next_subscription]⟩
  · exact SocketBroker.eq_of_subscribe h
  · rintro text arrival harrival hopen
    refine Arrival.messages_append_message hopen ?_
    rcases harrival with rfl | rfl
    · rfl
    · exact Frame.message?_eq_some_iff.2 (.inr rfl)
  · intro frame hskip
    refine ⟨Arrival.messages_append_skip hskip, ?_⟩
    simp [Arrival.endsStream, (Arrival.of_skipped hskip).1]
  · rintro arrival (rfl | rfl | rfl) <;> exact Arrival.messages_append_end rfl
  · exact Call.toldAt?_of_triggerFirst hr hc h ht ha hle
  · exact fun answered ha hle => Call.toldAt?_of_acknowledged hr hc h ht ha (Nat.le_of_lt hle)
  · intro ha
    have htold := Call.toldAt?_of_acknowledged hr hc h ht ha (Nat.le_refl _)
    rw [Nat.max_eq_left (Nat.le_of_lt ht)] at htold
    exact ⟨_, .inl rfl, htold⟩
  · exact fun answered e ha hle =>
      Call.toldAt?_of_refused hr hc (Nat.le_trans h.opened_le (Nat.le_of_lt ht)) ha hle
  · exact fun ha => Call.toldAt?_of_unanswered hr hc (Nat.le_trans h.opened_le (Nat.le_of_lt ht)) ha

/-- Two frames without a message, a heartbeat, a close frame, and a result that comes too late. -/
def Client.closedEarly : Exchange where
  deadline := 10
  opened := 1
  answer := some (0, none)
  arrivals := [(2, .sent .ping), (3, .sent (.binary [255])), (4, .sent (.text "heartbeat")),
    (5, .sent .close),
    (6, .sent (.text "\x7b\"share_data\":\"c2hhcmU=\",\"pub_key\":\"0x01\"\x7d"))]
  sorted := by decide

theorem Client.breaks_closedEarly : closedEarly.Breaks .keygen 5 := by
  refine ⟨closedEarly.arrivals.take 3, _, _, rfl, rfl, ?_⟩
  have hnoise : resultOf? .keygen "heartbeat" = none := by decide +kernel
  have hbytes : Arrival.message? (.sent (.binary [255])) = none := by decide +kernel
  rw [show closedEarly.arrivals.take 3 = [(2, .sent .ping), (3, .sent (.binary [255])),
    (4, .sent (.text "heartbeat"))] from rfl, List.forall_mem_cons, List.forall_mem_cons,
    List.forall_mem_singleton]
  refine ⟨⟨rfl, nofun⟩, ⟨rfl, fun text h => ?_⟩, rfl, fun text h => ?_⟩
  · rw [hbytes] at h
    cases h
  · cases h
    exact noise_iff.2 hnoise

/-- A socket that is closed while the trigger is on its way. -/
def Client.closedUnheard : Exchange where
  deadline := 10
  opened := 0
  answer := none
  arrivals := [(1, .sent .close)]
  sorted := by decide

theorem Client.breaks_closedUnheard : closedUnheard.Breaks .keygen 1 :=
  ⟨[], _, _, rfl, rfl, nofun⟩

/-- A peer that sends a text between frames without a message. -/
def Client.talker : FrameSender :=
  ⟨"peer", none, [.ping, .text "one", .binary [255], .close, .text "two"]⟩

theorem socket_frames_of_closedEarly :
    (∃ sub, ((SocketBroker.ofUrl "http://peer").subscribe talker signingKey).1 = .ok sub ∧
      sub.messages = ["one"]) ∧
    Call.firstWallet.toldAt? .standard (closedEarly.events false) =
      some (.error (.channelClosed "keygen:s1"), 5) ∧
    Call.firstWallet.toldAt? .early
        (Exchange.events { closedEarly with answer := some (7, none) } true) =
      some (.error (.channelClosed "keygen:s1"), 7) ∧
    (∃ e, (e = .channelClosed "keygen:s1" ∨ e = .timeout "keygen:s1") ∧
      Call.firstWallet.toldAt? .early
        (Exchange.events { closedEarly with answer := some (10, none) } true) =
      some (.error e, 10)) ∧
    Call.firstWallet.toldAt? .early
        (Exchange.events { closedEarly with answer := some (7, some (.transport "down")) } true) =
      some (.error (.triggerFailed
        "InitKeygen for session s1: Transport error: down"), 7) ∧
    Call.firstWallet.toldAt? .early (closedUnheard.events true) =
      some (.error (.triggerFailed "InitKeygen for session s1: deadline elapsed"), 10) := by
  obtain ⟨-, hsubscribe, hmessages, hcalls⟩ := socket_frames
  have hrequest (config : Config) (hv : config.Valid) :
      ∃ request, Call.firstWallet.request config = .ok request :=
    Call.request_of_valid hv (by simp [Call.digest?, Call.firstWallet])
  obtain ⟨request, hr⟩ := hrequest .standard (Config.fault?_eq_none_iff.1 (by decide))
  obtain ⟨early, he⟩ := hrequest .early (Config.fault?_eq_none_iff.1 (by decide))
  have hearly (answer : Option (Nat × Option Error)) :=
    (hcalls .early .firstWallet early { closedEarly with answer } 5 he breaks_closedEarly
      (show 5 < closedEarly.deadline by decide)).2 rfl
  refine ⟨?_, ?_, ?_, ?_, ?_, ?_⟩
  · have hsub : ((SocketBroker.ofUrl "http://peer").subscribe talker signingKey).1 =
        .ok (.ofMessages "sign:s2" ["one"] true) := by decide +kernel
    refine ⟨_, hsub, ?_⟩
    rw [hsubscribe _ _ _ _ hsub]
    -- the ping could as well not have come, and nothing counts after the close frame
    have hskip := ((hmessages [] [.sent (.text "one"), .sent (.binary [255]), .sent .close,
      .sent (.text "two"), .ended]).2.1 .ping (.inl rfl)).1
    have hend := (hmessages [.sent (.text "one"), .sent (.binary [255])]
      [.sent (.text "two"), .ended]).2.2 _ (.inl rfl)
    have hone := (hmessages [] [.sent (.binary [255])]).1 "one" _ (.inl rfl) (by simp)
    have hnone : Arrival.messages [.sent (.binary [255])] = [] := by decide +kernel
    exact (hskip.trans (hend.trans hone)).trans (by rw [hnone]; rfl)
  · exact (hcalls .standard .firstWallet request closedEarly 5 hr breaks_closedEarly
      (by decide)).1 rfl 0 rfl (by decide)
  · exact (hearly (some (7, none))).1 7 rfl (by decide)
  · exact (hearly (some (10, none))).2.1 rfl
  · exact (hearly (some (7, some (.transport "down")))).2.2.1 7 _ rfl (by decide)
  · exact ((hcalls .early .firstWallet early closedUnheard 1 he
      breaks_closedUnheard (by decide)).2 rfl).2.2.2 (by simp [closedUnheard])

/-- **A closed socket can pass for a failed trigger**: the call has subscribed first, its socket is
closed before the deadline and before any result, and its trigger is not answered. -/
theorem triggerFailed_on_closed_socket :
    closedUnheard.Breaks Call.firstWallet.purpose 1 ∧ 1 < closedUnheard.deadline ∧
      Call.firstWallet.toldAt? Config.early (closedUnheard.events Config.early.subscribeFirst) =
        some (.error (.triggerFailed "InitKeygen for session s1: deadline elapsed"), 10) :=
  ⟨breaks_closedUnheard, by decide, rfl⟩

end Custody
