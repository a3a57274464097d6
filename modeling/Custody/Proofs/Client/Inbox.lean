import Custody.Client.SocketBroker
import Custody.Proofs.Service.Route
/-!
# A socket as its client reads it

The messages of a subscription behind a socket pass through two adapters (`Inbox.pull`,
`Inbox.next`): the first ends with the first frame that ends the stream, or with the socket, and the
second passes over frames that have no message. The frames come when the peer sends them, and the
subscription is looked at when its reader likes; whichever way the two interleave, what is read and
what is still to be read are the messages of all that has come (`Inbox.Holds.play`).

* `Inbox.next_subscription`: a look at a socket finds what a look at the subscription over its
  messages finds.
* `Arrival.messages_append_skip`, `Arrival.messages_append_end`: a frame without a message could as
  well not have come, and nothing counts that comes after the end.
-/

namespace Custody.Client

/-! ## Messages of frames -/

namespace Frame

/-- The bytes are a text. -/
def IsText (bytes : Bytes) : Prop :=
  ∃ text : String, bytes = text.toUTF8.toList

/-- **The frames with messages** are text frames and the binary frames that are UTF-8. -/
theorem message?_eq_some_iff {frame : Frame} {text : String} :
    frame.message? = some text ↔ frame = .text text ∨ frame = .binary text.toUTF8.toList := by
  cases frame with
  | binary bytes =>
    simp only [message?, reduceCtorEq, binary.injEq, false_or]
    constructor
    · intro h
      rw [String.fromUTF8?] at h
      split at h
      · cases h
        rw [String.toUTF8_eq_toByteArray, String.fromUTF8, ByteArray.toList, Text.toListLoop_eq]
        simp
      · cases h
    · rintro rfl
      rw [Text.mk_toList, Text.fromUTF8?_toUTF8]
  | _ => simp [message?]

/-- A frame that ends the stream has no message. -/
theorem message?_of_endsStream {frame : Frame} (h : frame.endsStream = true) :
    frame.message? = none := by
  cases frame <;> first | rfl | cases h

end Frame

/-! ## What comes over a socket -/

/-- What comes over a socket: a frame, or the news that nothing more will come. -/
inductive Arrival
  | sent (frame : Frame)
  | ended
  deriving DecidableEq, Repr

namespace Arrival

/-- The stream of messages ends here. -/
def endsStream : Arrival → Bool
  | sent frame => frame.endsStream
  | ended => true

/-- The message in what comes. -/
def message? : Arrival → Option String
  | sent frame => frame.message?
  | ended => none

/-- The messages in what comes, up to the end of the stream. -/
def messages (arrivals : List Arrival) : List String :=
  (arrivals.takeWhile fun arrival => !arrival.endsStream).filterMap message?

/-- The frame neither has a message nor ends the stream. -/
def Skipped (frame : Frame) : Prop :=
  frame = .ping ∨ frame = .pong ∨ ∃ bytes, frame = .binary bytes ∧ ¬ Frame.IsText bytes

variable {before after arrivals : List Arrival} {arrival : Arrival} {text : String}

theorem messages_map_sent (frames : List Frame) :
    messages (frames.map .sent) = Frame.messages frames := by
  rw [messages, Frame.messages, List.takeWhile_map, List.filterMap_map]
  rfl

theorem messages_singleton (h : arrival.endsStream = false) :
    messages [arrival] = arrival.message?.toList := by
  cases hmessage : arrival.message? <;> simp [messages, h, hmessage]

theorem messages_append (h : ∀ arrival ∈ before, arrival.endsStream = false) :
    messages (before ++ after) = messages before ++ messages after := by
  have hpos : ∀ arrival ∈ before, (!arrival.endsStream) = true := fun a ha => by simp [h a ha]
  rw [messages, List.takeWhile_append_of_pos hpos, List.filterMap_append, messages,
    List.takeWhile_eq_self_iff.2 hpos]
  rfl

theorem messages_append_of_end (h : ∃ arrival ∈ before, arrival.endsStream = true) :
    messages (before ++ after) = messages before := by
  induction before with
  | nil => simp at h
  | cons first rest ih =>
    cases hfirst : first.endsStream with
    | true => simp [messages, hfirst]
    | false =>
      have hrest : ∃ arrival ∈ rest, arrival.endsStream = true := by simpa [hfirst] using h
      have htail := ih hrest
      simp only [messages] at htail
      simp only [messages, List.cons_append, List.takeWhile_cons, hfirst, Bool.not_false, if_true,
        List.filterMap_cons, htail]

/-- A message that comes before the end is one of the messages, at its place. -/
theorem messages_append_message (h : ∀ arrival ∈ before, arrival.endsStream = false)
    (ht : arrival.message? = some text) :
    messages (before ++ arrival :: after) = messages before ++ text :: messages after := by
  have hends : arrival.endsStream = false := by
    cases arrival with
    | ended => cases ht
    | sent frame =>
      cases he : frame.endsStream with
      | false => exact he
      | true => rw [message?, Frame.message?_of_endsStream he] at ht; cases ht
  rw [messages_append h]
  simp [messages, hends, ht]

theorem of_skipped {frame : Frame} (h : Skipped frame) :
    frame.endsStream = false ∧ frame.message? = none := by
  rcases h with rfl | rfl | ⟨bytes, rfl, hbytes⟩
  · exact ⟨rfl, rfl⟩
  · exact ⟨rfl, rfl⟩
  · refine ⟨rfl, Option.eq_none_iff_forall_ne_some.2 fun text ht => hbytes ⟨text, ?_⟩⟩
    simpa using Frame.message?_eq_some_iff.1 ht

/-- **A frame without a message could as well not have come.** -/
theorem messages_append_skip {frame : Frame} (h : Skipped frame) :
    messages (before ++ .sent frame :: after) = messages (before ++ after) := by
  obtain ⟨hends, hmessage⟩ := of_skipped h
  by_cases hb : ∃ arrival ∈ before, arrival.endsStream = true
  · rw [messages_append_of_end hb, messages_append_of_end hb]
  · have hopen : ∀ arrival ∈ before, arrival.endsStream = false := by simpa using hb
    rw [messages_append hopen, messages_append hopen]
    simp [messages, endsStream, message?, hends, hmessage]

/-- **Nothing counts that comes after the end.** -/
theorem messages_append_end (h : arrival.endsStream = true) :
    messages (before ++ arrival :: after) = messages before := by
  by_cases hb : ∃ arrival ∈ before, arrival.endsStream = true
  · exact messages_append_of_end hb
  · rw [messages_append (by simpa using hb)]
    simp [messages, h]

end Arrival

/-! ## The adapters -/

/-- The client's end of a socket. -/
structure Inbox where
  /-- The frames that have come and that no adapter has taken. -/
  frames : List Frame
  /-- No more frames will come. -/
  isOver : Bool
  /-- The first adapter has ended, and takes no more frames. -/
  isDone : Bool
  deriving DecidableEq, Repr

namespace Inbox

/-- A socket over which nothing has come. -/
def opened : Inbox := ⟨[], false, false⟩

/-- Something comes over the socket. Nothing comes over one that is over. -/
def add (inbox : Inbox) : Arrival → Inbox
  | .sent frame =>
    if inbox.isOver then inbox else { inbox with frames := inbox.frames ++ [frame] }
  | .ended => { inbox with isOver := true }

/-- What an adapter is handed. -/
inductive Piece
  | frame (frame : Frame)
  | nothing
  | ended
  deriving DecidableEq, Repr

/-- The first adapter hands on the next frame, unless the stream ends with it. -/
def pull (inbox : Inbox) : Piece × Inbox :=
  if inbox.isDone then (.ended, inbox)
  else
    match inbox.frames with
    | [] => (if inbox.isOver then .ended else .nothing, inbox)
    | frame :: rest =>
      if frame.endsStream then (.ended, { inbox with frames := rest, isDone := true })
      else (.frame frame, { inbox with frames := rest })

theorem length_pull {inbox later : Inbox} {frame : Frame} (h : inbox.pull = (.frame frame, later)) :
    later.frames.length < inbox.frames.length := by
  unfold pull at h
  split at h
  · cases h
  · split at h
    · split at h <;> cases h
    · next first rest hframes =>
      split at h
      · cases h
      · cases h
        simp [hframes]

/-- The second adapter hands on the next message. -/
def next (inbox : Inbox) : Reading × Inbox :=
  match _hpull : inbox.pull with
  | (.ended, later) => (.ended, later)
  | (.nothing, later) => (.nothing, later)
  | (.frame frame, later) =>
    match frame.message? with
    | some message => (.payload message, later)
    | none => later.next
termination_by inbox.frames.length
decreasing_by exact length_pull ‹_›

/-- The messages that can be read now. -/
def messages (inbox : Inbox) : List String :=
  if inbox.isDone then [] else Frame.messages inbox.frames

/-- The stream ends after them. -/
def ends (inbox : Inbox) : Bool :=
  inbox.isDone || inbox.frames.any Frame.endsStream || inbox.isOver

/-- The subscription over what can be read now. -/
def subscription (inbox : Inbox) (channel : String) : Subscription :=
  .ofMessages channel inbox.messages inbox.ends

/-- What the first adapter does to the messages: it ends where they end, and else it takes the
message of one frame from them, or nothing. -/
theorem pull_spec (inbox : Inbox) :
    match inbox.pull with
    | (.ended, later) => inbox.messages = [] ∧ inbox.ends = true ∧
        later.messages = [] ∧ later.ends = true
    | (.nothing, later) => later = inbox ∧ inbox.messages = [] ∧ inbox.ends = false
    | (.frame frame, later) => inbox.messages = frame.message?.toList ++ later.messages ∧
        inbox.ends = later.ends := by
  obtain ⟨frames, isOver, isDone⟩ := inbox
  cases isDone with
  | true => exact ⟨rfl, rfl, rfl, rfl⟩
  | false =>
    cases frames with
    | nil => cases isOver <;> simp [pull, messages, Frame.messages, ends]
    | cons frame rest =>
      cases hends : frame.endsStream with
      | true => simp [pull, messages, Frame.messages, ends, hends]
      | false =>
        cases hmessage : frame.message? <;>
          simp [pull, messages, Frame.messages, ends, hends, hmessage]

/-- **A look at a socket finds what a look at the subscription over its messages finds**, and leaves
what that look leaves. -/
theorem next_subscription (inbox : Inbox) (channel : String) :
    (inbox.subscription channel).next = (inbox.next.1, inbox.next.2.subscription channel) := by
  fun_induction next inbox with
  | case1 inbox later hpull =>
    have hspec := inbox.pull_spec
    rw [hpull] at hspec
    obtain ⟨hm, he, hm', he'⟩ := hspec
    simp [subscription, Subscription.ofMessages, Subscription.next, hm, he, hm', he']
  | case2 inbox later hpull =>
    have hspec := inbox.pull_spec
    rw [hpull] at hspec
    obtain ⟨rfl, hm, he⟩ := hspec
    simp [subscription, Subscription.ofMessages, Subscription.next, hm, he]
  | case3 inbox later frame hpull message hmessage =>
    have hspec := inbox.pull_spec
    rw [hpull] at hspec
    obtain ⟨hm, he⟩ := hspec
    simp [subscription, Subscription.ofMessages, Subscription.next, hm, he, hmessage]
  | case4 inbox later frame hpull hmessage ih =>
    have hspec := inbox.pull_spec
    rw [hpull] at hspec
    obtain ⟨hm, he⟩ := hspec
    rw [← ih, subscription, subscription, hm, he, hmessage]
    rfl

/-- A look finds the first message there is. -/
theorem next_of_messages {inbox : Inbox} {message : String} {rest : List String}
    (h : inbox.messages = message :: rest) :
    inbox.next.1 = .payload message ∧ inbox.next.2.messages = rest ∧
      inbox.next.2.ends = inbox.ends := by
  have hnext := inbox.next_subscription ""
  simp only [subscription, Subscription.ofMessages, Subscription.next, h, Prod.mk.injEq,
    Subscription.mk.injEq] at hnext
  exact ⟨hnext.1.symm, hnext.2.2.1.symm, hnext.2.2.2.1.symm⟩

/-- Without a message a look finds the end, or nothing. -/
theorem next_of_no_messages {inbox : Inbox} (h : inbox.messages = []) :
    inbox.next.1 = (if inbox.ends then .ended else .nothing) ∧ inbox.next.2.messages = [] ∧
      inbox.next.2.ends = inbox.ends := by
  have hnext := inbox.next_subscription ""
  simp only [subscription, Subscription.ofMessages, Subscription.next, h, Prod.mk.injEq,
    Subscription.mk.injEq] at hnext
  exact ⟨hnext.1.symm, hnext.2.2.1.symm, hnext.2.2.2.1.symm⟩

variable {inbox later : Inbox} {message : String}

/-- A look that finds a message takes the first one. -/
theorem messages_of_payload (h : inbox.next = (.payload message, later)) :
    inbox.messages = message :: later.messages ∧ later.ends = inbox.ends := by
  cases hmessages : inbox.messages with
  | nil =>
    have hnext := (next_of_no_messages hmessages).1
    rw [h] at hnext
    split at hnext <;> cases hnext
  | cons first rest =>
    obtain ⟨hnext, hrest, hends⟩ := next_of_messages hmessages
    rw [h] at hnext hrest hends
    cases hnext
    exact ⟨congrArg _ hrest.symm, hends⟩

/-- A look that finds no message has none to find. -/
theorem messages_eq_nil (h : ∀ message, inbox.next.1 ≠ .payload message) : inbox.messages = [] := by
  cases hmessages : inbox.messages with
  | nil => rfl
  | cons first rest => exact absurd (next_of_messages hmessages).1 (h first)

/-- A look that finds nothing leaves nothing to be found, and the stream goes on. -/
theorem messages_of_nothing (h : inbox.next = (.nothing, later)) :
    inbox.messages = [] ∧ inbox.ends = false ∧ later.messages = [] ∧ later.ends = false := by
  have hmessages : inbox.messages = [] := messages_eq_nil (by simp [h])
  obtain ⟨hnext, hrest, hends⟩ := next_of_no_messages hmessages
  rw [h] at hnext hrest hends
  have hopen : inbox.ends = false := by
    rw [← Bool.not_eq_true]
    intro hover
    rw [if_pos hover] at hnext
    cases hnext
  exact ⟨hmessages, hopen, hrest, hends.trans hopen⟩

/-- A look finds the end when all messages are read. -/
theorem messages_of_ended (h : inbox.next = (.ended, later)) :
    inbox.messages = [] ∧ inbox.ends = true := by
  have hmessages : inbox.messages = [] := messages_eq_nil (by simp [h])
  have hnext := (next_of_no_messages hmessages).1
  rw [h] at hnext
  refine ⟨hmessages, ?_⟩
  rw [← Bool.not_eq_false]
  intro hopen
  rw [if_neg (by simp [hopen])] at hnext
  cases hnext

/-! ## Frames and looks in any order -/

/-- Something comes, or the reader looks. -/
inductive Turn
  | arrives (arrival : Arrival)
  | look
  deriving DecidableEq, Repr

/-- What comes in the course of turns. -/
def Turn.arrivals (turns : List Turn) : List Arrival :=
  turns.filterMap fun
    | arrives arrival => some arrival
    | look => none

/-- Turns in order: what the looks find, and what is left. -/
def play (inbox : Inbox) : List Turn → List Reading × Inbox
  | [] => ([], inbox)
  | .arrives arrival :: rest => (inbox.add arrival).play rest
  | .look :: rest => (inbox.next.1 :: (inbox.next.2.play rest).1, (inbox.next.2.play rest).2)

/-- The payloads among readings. -/
def payloads (readings : List Reading) : List String :=
  readings.filterMap fun
    | .payload payload => some payload
    | .nothing | .ended => none

/-- Nothing that comes adds to a stream that has its end. -/
theorem add_of_ends {inbox : Inbox} (h : inbox.ends = true) (arrival : Arrival) :
    (inbox.add arrival).messages = inbox.messages ∧ (inbox.add arrival).ends = true := by
  obtain ⟨frames, isOver, isDone⟩ := inbox
  cases arrival with
  | ended => exact ⟨rfl, by simp [add, ends]⟩
  | sent frame =>
    cases isOver with
    | true => exact ⟨rfl, by simp [add, ends]⟩
    | false =>
      cases isDone with
      | true => exact ⟨rfl, rfl⟩
      | false =>
        have hframe : ∃ frame ∈ frames, frame.endsStream = true := by simpa [ends] using h
        have hend : ∃ arrival ∈ frames.map Arrival.sent, arrival.endsStream = true := by
          simpa [Arrival.endsStream] using hframe
        have happend : Arrival.messages (frames.map Arrival.sent ++ [.sent frame]) = _ :=
          Arrival.messages_append_of_end hend
        rw [← List.map_singleton, ← List.map_append, Arrival.messages_map_sent,
          Arrival.messages_map_sent] at happend
        exact ⟨by simpa [add, messages] using happend, by simpa [add, ends] using .inl hframe⟩

/-- What comes adds its message to a stream that has no end. -/
theorem add_of_not_ends {inbox : Inbox} (h : inbox.ends = false) (arrival : Arrival) :
    (inbox.add arrival).messages = inbox.messages ++ Arrival.messages [arrival] ∧
      (inbox.add arrival).ends = arrival.endsStream := by
  obtain ⟨frames, isOver, isDone⟩ := inbox
  simp only [ends, Bool.or_eq_false_iff] at h
  obtain ⟨⟨rfl, hframes⟩, rfl⟩ := h
  cases arrival with
  | ended => simp [add, ends, messages, Arrival.messages, Arrival.endsStream]
  | sent frame =>
    have hopen : ∀ arrival ∈ frames.map Arrival.sent, arrival.endsStream = false := by
      simpa [Arrival.endsStream] using hframes
    have happend : Arrival.messages (frames.map Arrival.sent ++ [.sent frame]) = _ :=
      Arrival.messages_append hopen
    rw [← List.map_singleton, ← List.map_append, Arrival.messages_map_sent,
      Arrival.messages_map_sent] at happend
    exact ⟨by simpa [add, messages] using happend, by simp [add, ends, hframes, Arrival.endsStream]⟩

/-- `inbox.Holds arrivals read`: of the messages in what has come, these have been read, and the
others are there to be read. -/
structure Holds (inbox : Inbox) (arrivals : List Arrival) (read : List String) : Prop where
  messages : read ++ inbox.messages = Arrival.messages arrivals
  ends : inbox.ends = arrivals.any Arrival.endsStream

namespace Holds

variable {inbox : Inbox} {arrivals : List Arrival} {read : List String}

theorem opened : opened.Holds [] [] := ⟨rfl, rfl⟩

theorem add (h : inbox.Holds arrivals read) (arrival : Arrival) :
    (inbox.add arrival).Holds (arrivals ++ [arrival]) read := by
  have hany := h.ends
  cases hends : inbox.ends with
  | true =>
    obtain ⟨hm, he⟩ := add_of_ends hends arrival
    rw [hends] at hany
    refine ⟨?_, by rw [he, List.any_append, ← hany]; rfl⟩
    rw [hm, h.messages, Arrival.messages_append_of_end (List.any_eq_true.1 hany.symm)]
  | false =>
    obtain ⟨hm, he⟩ := add_of_not_ends hends arrival
    rw [hends] at hany
    refine ⟨?_, by rw [he, List.any_append, ← hany]; simp⟩
    rw [hm, ← List.append_assoc, h.messages,
      Arrival.messages_append (by simpa using hany.symm)]

/-- Whatever comes while nobody looks is there to be read. -/
theorem foldl (h : inbox.Holds arrivals read) (coming : List (Nat × Arrival)) :
    (coming.foldl (fun inbox q => inbox.add q.2) inbox).Holds (arrivals ++ coming.map Prod.snd)
      read := by
  induction coming generalizing inbox arrivals with
  | nil => simpa using h
  | cons q rest ih => simpa using ih (h.add q.2)

/-- A look takes the first message that has not been read. -/
theorem look (h : inbox.Holds arrivals read) :
    inbox.next.2.Holds arrivals (read ++ payloads [inbox.next.1]) := by
  have hm := h.messages
  cases hmessages : inbox.messages with
  | nil =>
    obtain ⟨hnext, hrest, hends⟩ := next_of_no_messages hmessages
    have hnone : payloads [inbox.next.1] = [] := by rw [hnext]; split <;> rfl
    rw [hmessages] at hm
    exact ⟨by rw [hnone, hrest, List.append_nil, hm], hends.trans h.ends⟩
  | cons message rest =>
    obtain ⟨hnext, hrest, hends⟩ := next_of_messages hmessages
    have hone : payloads [inbox.next.1] = [message] := by rw [hnext]; rfl
    rw [hmessages] at hm
    exact ⟨by rw [hone, hrest, List.append_assoc, ← hm]; rfl, hends.trans h.ends⟩

/-- **The messages of a socket**: in the course of any turns, what has been read and what is there
to be read are the messages of all that has come. -/
theorem play (h : inbox.Holds arrivals read) (turns : List Turn) :
    (inbox.play turns).2.Holds (arrivals ++ Turn.arrivals turns)
      (read ++ payloads (inbox.play turns).1) := by
  induction turns generalizing inbox arrivals read with
  | nil => simpa [Inbox.play, Turn.arrivals, payloads] using h
  | cons turn rest ih =>
    cases turn with
    | arrives arrival =>
      have hrest := ih (h.add arrival)
      rw [List.append_assoc] at hrest
      exact hrest
    | look =>
      have hrest := ih h.look
      rw [List.append_assoc, payloads, payloads, ← List.filterMap_append] at hrest
      exact hrest

/-- What a look finds, by what has come and what has been read. -/
theorem subscription_eq (h : inbox.Holds arrivals read) (channel : String) :
    inbox.subscription channel = .ofMessages channel ((Arrival.messages arrivals).drop read.length)
      (arrivals.any Arrival.endsStream) := by
  rw [subscription, ← h.messages, List.drop_left, h.ends]

end Holds

end Inbox

end Custody.Client
