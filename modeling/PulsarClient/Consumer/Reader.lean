/-
  THE READER (`src/reader.rs`): a consumer that acknowledges what it yields.

  A poll takes the state out, and has to put one back on every path.  A message that the consumer has ready
  is held while its ack is sent; the poll that takes it goes on as a poll of the ack.

  1. `AckFut.poll` — the future of `acker.send(..)`: it waits for the channel, hands the ack over, and
     flushes.  It may be pending before the ack is in the channel, and after.

  2. `pollNext` — one poll, with what it did as events: what it took from the consumer, what it enqueued,
     what the channel refused.  `run` adds what it yielded.

  3. `Block` — all that can become of one item of the consumer.  **Every run is a sequence of blocks**, and
     the beginning of one more (`reader_run`): the order is that of the consumer, an ack precedes its
     message, and a message is lost only with the error of its ack in its place.
-/
import PulsarClient.Consumer.Engine

namespace PulsarClient.ReaderStream

open Runs
open Consumer (EngineMessage)
open Proto (MessageIdData)

/-! ## The ack -/

inductive Poll (α : Type) where
  | Pending
  | Ready (a : α)
  deriving DecidableEq, Repr

/-- `futures::channel::mpsc::SendError` -/
inductive SendError where
  | Full
  | Disconnected
  deriving DecidableEq, Repr

/-- `From<SendError> for ConsumerError` -/
def SendError.into : SendError → ConsumerError
  | Full => .ChannelFull
  | Disconnected => .Closed

/-- What the ack channel answers a poll of a send.  The flush of a channel does not fail. -/
structure Sink where
  /-- `poll_ready` -/
  ready : Poll (Except SendError Unit)
  startSend : Except SendError Unit
  /-- `poll_flush` -/
  flush : Poll Unit

/-- What a reader does: items of the consumer, the ack channel, and its own. -/
inductive Event (μ : Type) where
  | took (item : Option (Except Error μ))
  | enqueued (m : EngineMessage)
  | refused (e : SendError)
  | yielded (item : Option (Except Error μ))

/-- The future of `acker.send(message)`. -/
structure AckFut where
  message : EngineMessage
  /-- the channel has the message -/
  sent : Bool
  deriving DecidableEq, Repr

namespace AckFut

/-- The flush, once the channel has the message. -/
def flush (f : AckFut) (sink : Sink) : Poll (Except SendError Unit) × AckFut :=
  match sink.flush with
  | .Pending => (.Pending, { f with sent := true })
  | .Ready () => (.Ready (.ok ()), { f with sent := true })

/-- `Future::poll` of `SinkExt::send` -/
def poll {μ : Type} (f : AckFut) (sink : Sink) :
    (Poll (Except SendError Unit) × AckFut) × List (Event μ) :=
  if f.sent then (f.flush sink, [])
  else
    match sink.ready with
    | .Pending => ((.Pending, f), [])
    | .Ready (.error e) => ((.Ready (.error e), f), [.refused e])
    | .Ready (.ok ()) =>
      match sink.startSend with
      | .error e => ((.Ready (.error e), f), [.refused e])
      | .ok () => (f.flush sink, [.enqueued f.message])

/-- What the channel has of it. -/
def inChannel {μ : Type} (f : AckFut) : List (Event μ) :=
  if f.sent then [.enqueued f.message] else []

/-- **What a poll of a send comes to**: it waits, the message is in the channel once, or it never was. -/
theorem poll_cases {μ : Type} (f : AckFut) (sink : Sink) :
    (∃ f' events, f.poll (μ := μ) sink = ((.Pending, f'), events) ∧ f'.message = f.message ∧
        f.inChannel ++ events = f'.inChannel) ∨
      (∃ f' events, f.poll (μ := μ) sink = ((.Ready (.ok ()), f'), events) ∧
        f.inChannel ++ events = [.enqueued f.message]) ∨
      ∃ f' e, f.poll (μ := μ) sink = ((.Ready (.error e), f'), [.refused e]) ∧ f.sent = false := by
  unfold poll
  cases hsent : f.sent with
  | true =>
    have hhas : f.inChannel (μ := μ) = [.enqueued f.message] := if_pos hsent
    rw [if_pos rfl, hhas]
    unfold flush
    cases sink.flush with
    | Pending => exact Or.inl ⟨_, [], rfl, rfl, rfl⟩
    | Ready _ => exact Or.inr (Or.inl ⟨_, [], rfl, rfl⟩)
  | false =>
    have hhas : f.inChannel (μ := μ) = [] := if_neg (by rw [hsent]; exact Bool.false_ne_true)
    rw [if_neg Bool.false_ne_true, hhas]
    cases sink.ready with
    | Pending => exact Or.inl ⟨f, [], rfl, rfl, hhas.symm⟩
    | Ready ready =>
      cases ready with
      | error e => exact Or.inr (Or.inr ⟨f, e, rfl, rfl⟩)
      | ok _ =>
        cases sink.startSend with
        | error e => exact Or.inr (Or.inr ⟨f, e, rfl, rfl⟩)
        | ok _ =>
          unfold flush
          cases sink.flush with
          | Pending => exact Or.inl ⟨_, _, rfl, rfl, rfl⟩
          | Ready _ => exact Or.inr (Or.inl ⟨_, _, rfl, rfl⟩)

/-- A poll of a send does nothing but with the channel. -/
theorem poll_channel {μ : Type} (f : AckFut) (sink : Sink) :
    ∀ event ∈ (f.poll (μ := μ) sink).2, (∃ m, event = .enqueued m) ∨ ∃ e, event = .refused e := by
  intro event hevent
  rcases f.poll_cases (μ := μ) sink with
    ⟨f', events, hpoll, -, hchannel⟩ | ⟨f', events, hpoll, hchannel⟩ | ⟨f', e, hpoll, -⟩
  · rw [hpoll] at hevent
    have hmem : event ∈ f'.inChannel := hchannel ▸ List.mem_append_right _ hevent
    unfold inChannel at hmem
    split at hmem
    · exact Or.inl ⟨_, List.mem_singleton.mp hmem⟩
    · cases hmem
  · rw [hpoll] at hevent
    have hmem : event ∈ [.enqueued f.message] := hchannel ▸ List.mem_append_right _ hevent
    exact Or.inl ⟨_, List.mem_singleton.mp hmem⟩
  · rw [hpoll] at hevent
    exact Or.inr ⟨e, List.mem_singleton.mp hevent⟩

end AckFut

/-! ## The reader -/

inductive State (μ : Type) where
  | PollingConsumer
  | PollingAck (msg : μ) (ackFut : AckFut)

/-- What a reader is polled against. -/
structure World (μ : Type) where
  messageId : μ → MessageIdData
  /-- what the consumer answers its `n`-th poll -/
  consumer : Nat → Poll (Option (Except Error μ))
  /-- what the ack channel answers the `n`-th poll of a send -/
  channel : Nat → Sink

/-- `Reader`, with how often it polled, and what it did. -/
structure Reader (μ : Type) where
  state : Option (State μ)
  consumerPolls : Nat
  ackPolls : Nat
  events : List (Event μ)

section Polls

variable {μ : Type}

namespace Reader

/-- As it is built. -/
def new : Reader μ := { state := some .PollingConsumer, consumerPolls := 0, ackPolls := 0, events := [] }

/-- The consumer is polled, with the state taken out. -/
def askConsumer (r : Reader μ) (events : List (Event μ)) : Reader μ :=
  { r with state := none, consumerPolls := r.consumerPolls + 1, events := r.events ++ events }

/-- The ack is polled, with the state taken out. -/
def askAck (r : Reader μ) (events : List (Event μ)) : Reader μ :=
  { r with state := none, ackPolls := r.ackPolls + 1, events := r.events ++ events }

/-- `this.state = Some(state)` -/
def put (r : Reader μ) (state : State μ) : Reader μ := { r with state := some state }

end Reader

/-- Whether a poll may go on with a second state. -/
def State.rank : Option (State μ) → Nat
  | some .PollingConsumer => 1
  | _ => 0

/-- `poll_next`; `none` is the panic of `unwrap`. -/
def pollNext (w : World μ) (r : Reader μ) :
    Option (Poll (Option (Except Error μ))) × Reader μ :=
  match _ : r.state with
  | none => (none, r)
  | some .PollingConsumer =>
    match w.consumer r.consumerPolls with
    | .Pending => (some .Pending, (r.askConsumer []).put .PollingConsumer)
    | .Ready none => (some (.Ready none), (r.askConsumer [.took none]).put .PollingConsumer)
    | .Ready (some (.ok msg)) =>
      pollNext w ((r.askConsumer [.took (some (.ok msg))]).put
        (.PollingAck msg { message := .Ack (w.messageId msg) false, sent := false }))
    | .Ready (some (.error e)) =>
      (some (.Ready (some (.error e))),
        (r.askConsumer [.took (some (.error e))]).put .PollingConsumer)
  | some (.PollingAck msg ackFut) =>
    match ackFut.poll (w.channel r.ackPolls) with
    | ((.Pending, ackFut), events) =>
      (some .Pending, (r.askAck events).put (.PollingAck msg ackFut))
    | ((.Ready res, _), events) =>
      (some (.Ready (some ((res.mapError fun err => .Consumer err.into).map fun () => msg))),
        (r.askAck events).put .PollingConsumer)
termination_by State.rank r.state
decreasing_by
  simp_all [State.rank, Reader.put]

/-- A poll, and what it yields. -/
def poll (w : World μ) (r : Reader μ) : Reader μ :=
  match pollNext w r with
  | (some (.Ready item), r) => { r with events := r.events ++ [.yielded item] }
  | (_, r) => r

/-- Any number of polls of a new reader. -/
def run (w : World μ) : Nat → Reader μ
  | 0 => .new
  | n + 1 => poll w (run w n)

/-! ## What is claimed -/

/-- The individual ack of a message. -/
def World.ack (w : World μ) (msg : μ) : EngineMessage := .Ack (w.messageId msg) false

def Poll.item {α : Type} : Poll α → Option α
  | Pending => none
  | Ready a => some a

/-- What the consumer had ready, in its first polls. -/
def World.stream (w : World μ) (polls : Nat) : List (Option (Except Error μ)) :=
  (List.range polls).filterMap fun n => (w.consumer n).item

/-- What was taken from the consumer. -/
def takes (events : List (Event μ)) : List (Option (Except Error μ)) :=
  events.filterMap fun
    | .took item => some item
    | _ => none

/-- What was yielded. -/
def yields (events : List (Event μ)) : List (Option (Except Error μ)) :=
  events.filterMap fun
    | .yielded item => some item
    | _ => none

/-- The messages that were yielded. -/
def messages (events : List (Event μ)) : List μ :=
  events.filterMap fun
    | .yielded (some (.ok msg)) => some msg
    | _ => none

/-- What was enqueued. -/
def acks (events : List (Event μ)) : List EngineMessage :=
  events.filterMap fun
    | .enqueued m => some m
    | _ => none

/-- The message whose ack is being sent. -/
def Reader.held (r : Reader μ) : List (Option (Except Error μ)) :=
  match r.state with
  | some (.PollingAck msg _) => [some (.ok msg)]
  | _ => []

/-- When a message is yielded, it and each one before it had its own ack enqueued, and no other was. -/
def Acked (w : World μ) (events : List (Event μ)) : Prop :=
  Each (fun before event => ∀ msg, event = .yielded (some (.ok msg)) →
    acks before = (messages before ++ [msg]).map w.ack) events

/-- A reader that loses nothing. -/
structure Lossless (w : World μ) (r : Reader μ) : Prop where
  /-- the next poll finds a state -/
  running : (pollNext w r).1 ≠ none
  /-- it yields what the consumer yields, each once and in order -/
  inOrder : w.stream r.consumerPolls = yields r.events ++ r.held
  acked : Acked w r.events

/-- All that becomes of one item of the consumer. -/
inductive Block (μ : Type) where
  | ended
  | failed (e : Error)
  | acknowledged (msg : μ)
  /-- its ack is refused: the message is lost, and the reader yields the error of the ack -/
  | dropped (msg : μ) (e : SendError)

def Block.events (w : World μ) : Block μ → List (Event μ)
  | ended => [.took none, .yielded none]
  | failed e => [.took (some (.error e)), .yielded (some (.error e))]
  | acknowledged msg =>
    [.took (some (.ok msg)), .enqueued (w.ack msg), .yielded (some (.ok msg))]
  | dropped msg e =>
    [.took (some (.ok msg)), .refused e, .yielded (some (.error (.Consumer e.into)))]

/-- What is under way. -/
def State.begun (w : World μ) : State μ → List (Event μ)
  | PollingConsumer => []
  | PollingAck msg ackFut =>
    .took (some (.ok msg)) :: if ackFut.sent then [.enqueued (w.ack msg)] else []

/-- **A reader that loses a message only with its ack.** -/
structure Faithful (w : World μ) (r : Reader μ) : Prop where
  /-- the next poll finds a state -/
  running : (pollNext w r).1 ≠ none
  /-- it takes what the consumer yields, each item once and in order -/
  taken : takes r.events = w.stream r.consumerPolls
  /-- and is done with an item before it takes the next -/
  blocks : ∃ (bs : List (Block μ)) (state : State μ), r.state = some state ∧
    r.events = bs.flatMap (Block.events w) ++ state.begun w
  acked : Acked w r.events

/-! ## Logs -/

@[simp] theorem takes_append (l l' : List (Event μ)) : takes (l ++ l') = takes l ++ takes l' :=
  List.filterMap_append

@[simp] theorem yields_append (l l' : List (Event μ)) : yields (l ++ l') = yields l ++ yields l' :=
  List.filterMap_append

@[simp] theorem messages_append (l l' : List (Event μ)) :
    messages (l ++ l') = messages l ++ messages l' :=
  List.filterMap_append

@[simp] theorem acks_append (l l' : List (Event μ)) : acks (l ++ l') = acks l ++ acks l' :=
  List.filterMap_append

/-- Blocks enqueue the acks of the messages they yield. -/
theorem acks_blocks (w : World μ) (bs : List (Block μ)) :
    acks (bs.flatMap (Block.events w)) = (messages (bs.flatMap (Block.events w))).map w.ack := by
  induction bs with
  | nil => rfl
  | cons b bs ih =>
    rw [List.flatMap_cons, acks_append, messages_append, List.map_append, ih]
    congr 1
    cases b with
    | ended => rfl
    | failed e => rfl
    | acknowledged msg => rfl
    | dropped msg e => rfl

theorem stream_succ (w : World μ) (polls : Nat) :
    w.stream (polls + 1) = w.stream polls ++ (w.consumer polls).item.toList := by
  unfold World.stream
  rw [List.range_succ, List.filterMap_append]
  congr 1

/-- Events that yield no message owe nothing. -/
theorem Acked.append {w : World μ} {events more : List (Event μ)} (h : Acked w events)
    (hmore : ∀ msg, .yielded (some (.ok msg)) ∉ more) : Acked w (events ++ more) := by
  refine each_append h fun event hevent before msg heq => ?_
  exact absurd (heq ▸ hevent) (hmore msg)

/-- The ack channel has no part in what is taken, and in what is yielded. -/
theorem Acked.append_poll {w : World μ} {events : List (Event μ)} (h : Acked w events)
    (f : AckFut) (sink : Sink) : Acked w (events ++ (f.poll sink).2) := by
  refine h.append fun msg hmem => ?_
  rcases f.poll_channel sink _ hmem with ⟨m, heq⟩ | ⟨e, heq⟩
  · cases heq
  · cases heq

theorem takes_poll (f : AckFut) (sink : Sink) : takes (f.poll (μ := μ) sink).2 = [] := by
  refine List.filterMap_eq_nil_iff.mpr fun event hevent => ?_
  rcases f.poll_channel sink _ hevent with ⟨m, rfl⟩ | ⟨e, rfl⟩
  · rfl
  · rfl

/-! ## One poll -/

/-- What is known of a reader between two polls. -/
structure Inv (w : World μ) (r : Reader μ) (state : State μ) : Prop where
  found : r.state = some state
  message : ∀ msg ackFut, state = .PollingAck msg ackFut → ackFut.message = w.ack msg
  taken : takes r.events = w.stream r.consumerPolls
  blocks : ∃ bs : List (Block μ), r.events = bs.flatMap (Block.events w) ++ state.begun w
  acked : Acked w r.events

theorem pollNext_ack {w : World μ} {r : Reader μ} {msg : μ} {ackFut : AckFut}
    (h : r.state = some (.PollingAck msg ackFut)) :
    pollNext w r =
      match ackFut.poll (w.channel r.ackPolls) with
      | ((.Pending, ackFut), events) =>
        (some .Pending, (r.askAck events).put (.PollingAck msg ackFut))
      | ((.Ready res, _), events) =>
        (some (.Ready (some ((res.mapError fun err => .Consumer err.into).map fun () => msg))),
          (r.askAck events).put .PollingConsumer) := by
  rw [pollNext]
  split
  · next hnone => cases hnone.symm.trans h
  · next hother => cases hother.symm.trans h
  · next msg' ackFut' hstate =>
    obtain ⟨rfl, rfl⟩ := State.PollingAck.inj (Option.some.inj (hstate.symm.trans h))
    rfl

theorem pollNext_consumer {w : World μ} {r : Reader μ} (h : r.state = some .PollingConsumer) :
    pollNext w r =
      match w.consumer r.consumerPolls with
      | .Pending => (some .Pending, (r.askConsumer []).put .PollingConsumer)
      | .Ready none => (some (.Ready none), (r.askConsumer [.took none]).put .PollingConsumer)
      | .Ready (some (.ok msg)) =>
        pollNext w ((r.askConsumer [.took (some (.ok msg))]).put
          (.PollingAck msg { message := w.ack msg, sent := false }))
      | .Ready (some (.error e)) =>
        (some (.Ready (some (.error e))),
          (r.askConsumer [.took (some (.error e))]).put .PollingConsumer) := by
  rw [pollNext]
  split
  · next hnone => cases hnone.symm.trans h
  · next hstate => rfl
  · next msg ackFut hother => cases hother.symm.trans h

theorem poll_of_pending {w : World μ} {r r' : Reader μ} (h : pollNext w r = (some .Pending, r')) :
    poll w r = r' := by
  unfold poll
  rw [h]

theorem poll_of_ready {w : World μ} {r r' : Reader μ} {item : Option (Except Error μ)}
    (h : pollNext w r = (some (.Ready item), r')) :
    poll w r = { r' with events := r'.events ++ [.yielded item] } := by
  unfold poll
  rw [h]

theorem begun_of_message {w : World μ} {msg : μ} {f : AckFut} (h : f.message = w.ack msg) :
    (State.PollingAck msg f).begun w = .took (some (.ok msg)) :: f.inChannel := by
  unfold State.begun AckFut.inChannel
  rw [h]

/-- **A block is done** when its item is yielded: for a message, when its ack has been enqueued. -/
theorem inv_done {w : World μ} {r : Reader μ} {bs : List (Block μ)} {b : Block μ}
    {started : List (Event μ)} {item : Option (Except Error μ)}
    (hstate : r.state = some .PollingConsumer) (hlog : r.events = bs.flatMap (Block.events w) ++ started)
    (hblock : b.events w = started ++ [.yielded item]) (htaken : takes r.events = w.stream r.consumerPolls)
    (hacked : Acked w r.events)
    (howed : ∀ msg, item = some (.ok msg) → acks started = [w.ack msg] ∧ messages started = []) :
    Inv w { r with events := r.events ++ [.yielded item] } .PollingConsumer := by
  constructor
  · exact hstate
  · intro msg f heq
    cases heq
  · show takes (r.events ++ [.yielded item]) = w.stream r.consumerPolls
    rw [takes_append, htaken]
    exact List.append_nil _
  · refine ⟨bs ++ [b], ?_⟩
    show r.events ++ [.yielded item] = _ ++ []
    rw [hlog, List.append_assoc, List.append_nil, List.flatMap_append, List.flatMap_singleton, hblock]
  · refine each_concat.mpr ⟨hacked, fun msg heq => ?_⟩
    obtain ⟨hack, hnone⟩ := howed msg (Event.yielded.inj heq)
    rw [hlog, acks_append, messages_append, acks_blocks, hack, hnone, List.append_nil, List.map_append]
    rfl

/-- A state was put back. -/
def Goes (w : World μ) (r : Reader μ) : Prop :=
  (pollNext w r).1 ≠ none ∧ ∃ state, Inv w (poll w r) state

theorem goes_of_ready {w : World μ} {r r' : Reader μ} {item : Option (Except Error μ)} {state : State μ}
    (hnext : pollNext w r = (some (.Ready item), r'))
    (h : Inv w { r' with events := r'.events ++ [.yielded item] } state) : Goes w r := by
  refine ⟨by rw [hnext]; exact Option.some_ne_none _, state, ?_⟩
  rw [poll_of_ready hnext]
  exact h

theorem goes_of_pending {w : World μ} {r r' : Reader μ} {state : State μ}
    (hnext : pollNext w r = (some .Pending, r')) (h : Inv w r' state) : Goes w r := by
  refine ⟨by rw [hnext]; exact Option.some_ne_none _, state, ?_⟩
  rw [poll_of_pending hnext]
  exact h

/-- **A poll of the ack** keeps the message, yields it, or loses it to the error of the ack. -/
theorem goes_ack {w : World μ} {r : Reader μ} {msg : μ} {f : AckFut}
    (h : Inv w r (.PollingAck msg f)) : Goes w r := by
  obtain ⟨bs, hbs⟩ := h.blocks
  have hmessage := h.message msg f rfl
  have hnext := pollNext_ack (w := w) h.found
  have hquiet := takes_poll (μ := μ) f (w.channel r.ackPolls)
  have hacked := h.acked.append_poll f (w.channel r.ackPolls)
  rw [begun_of_message hmessage] at hbs
  rcases f.poll_cases (μ := μ) (w.channel r.ackPolls) with
    ⟨f', events, hpoll, hsame, hchannel⟩ | ⟨f', events, hpoll, hchannel⟩ | ⟨f', e, hpoll, hsent⟩
  · rw [hpoll] at hnext hquiet hacked
    have htaken : takes (r.events ++ events) = w.stream r.consumerPolls := by
      rw [takes_append, hquiet, List.append_nil, h.taken]
    refine goes_of_pending hnext ⟨rfl, ?_, htaken, ⟨bs, ?_⟩, hacked⟩
    · intro msg' ackFut heq
      obtain ⟨rfl, rfl⟩ := State.PollingAck.inj heq
      rw [hsame, hmessage]
    · rw [begun_of_message (hsame.trans hmessage), ← hchannel]
      show r.events ++ events = _
      rw [hbs, List.append_assoc, List.cons_append]
  · rw [hpoll] at hnext hquiet hacked
    have htaken : takes (r.events ++ events) = w.stream r.consumerPolls := by
      rw [takes_append, hquiet, List.append_nil, h.taken]
    have hlog : r.events ++ events =
        bs.flatMap (Block.events w) ++ [.took (some (.ok msg)), .enqueued (w.ack msg)] := by
      rw [hbs, List.append_assoc, List.cons_append, hchannel, hmessage]
    refine goes_of_ready hnext (inv_done (b := .acknowledged msg) rfl hlog rfl htaken hacked ?_)
    intro msg' heq
    obtain rfl := Except.ok.inj (Option.some.inj heq)
    exact ⟨rfl, rfl⟩
  · rw [hpoll] at hnext hquiet hacked
    have htaken : takes (r.events ++ [.refused e]) = w.stream r.consumerPolls := by
      rw [takes_append, hquiet, List.append_nil, h.taken]
    have hlog : r.events ++ [.refused e] =
        bs.flatMap (Block.events w) ++ [.took (some (.ok msg)), .refused e] := by
      have hempty : f.inChannel (μ := μ) = [] := if_neg (by rw [hsent]; exact Bool.false_ne_true)
      rw [hbs, hempty, List.append_assoc]
      rfl
    refine goes_of_ready hnext (inv_done (b := .dropped msg e) rfl hlog rfl htaken hacked ?_)
    intro msg' heq
    cases heq

/-- **A poll of the consumer** passes its end and its errors on, and turns to the ack of a message. -/
theorem goes_consumer {w : World μ} {r : Reader μ} (h : Inv w r .PollingConsumer) : Goes w r := by
  obtain ⟨bs, hbs⟩ := h.blocks
  have hnext := pollNext_consumer (w := w) h.found
  have hstream := stream_succ w r.consumerPolls
  rw [← h.taken] at hstream
  have hbs' : r.events = bs.flatMap (Block.events w) := by
    rw [hbs]
    exact List.append_nil _
  -- one more item is taken
  have htook : ∀ item, w.consumer r.consumerPolls = .Ready item →
      takes (r.events ++ [.took item]) = w.stream (r.consumerPolls + 1) ∧
        Acked w (r.events ++ [.took item]) := by
    intro item hitem
    rw [hstream, hitem, takes_append]
    refine ⟨rfl, h.acked.append fun msg hmem => ?_⟩
    cases List.mem_singleton.mp hmem
  cases hitem : w.consumer r.consumerPolls with
  | Pending =>
    rw [hitem] at hnext hstream
    refine goes_of_pending hnext ⟨rfl, ?_, ?_, ⟨bs, ?_⟩, ?_⟩
    · intro msg f heq
      cases heq
    · show takes (r.events ++ []) = w.stream (r.consumerPolls + 1)
      rw [hstream, List.append_nil]
      exact (List.append_nil _).symm
    · show r.events ++ [] = _ ++ []
      rw [hbs']
    · show Acked w (r.events ++ [])
      rw [List.append_nil]
      exact h.acked
  | Ready item =>
    obtain ⟨htaken, hacked⟩ := htook item hitem
    rw [hitem] at hnext
    cases item with
    | none =>
      refine goes_of_ready hnext (inv_done (b := .ended) rfl (congrArg (· ++ _) hbs') rfl htaken
        hacked ?_)
      intro msg heq
      cases heq
    | some item =>
      cases item with
      | error e =>
        refine goes_of_ready hnext (inv_done (b := .failed e) rfl (congrArg (· ++ _) hbs') rfl htaken
          hacked ?_)
        intro msg heq
        cases heq
      | ok msg =>
        -- `poll_next` goes on as a poll of the ack
        have hgoes : Goes w ((r.askConsumer [.took (some (.ok msg))]).put
            (.PollingAck msg { message := w.ack msg, sent := false })) := by
          refine goes_ack ⟨rfl, ?_, htaken, ⟨bs, congrArg (· ++ _) hbs'⟩, hacked⟩
          intro msg' f heq
          obtain ⟨rfl, rfl⟩ := State.PollingAck.inj heq
          rfl
        obtain ⟨hrunning, state, hinv⟩ := hgoes
        refine ⟨by rw [hnext]; exact hrunning, state, ?_⟩
        unfold poll at hinv ⊢
        rw [hnext]
        exact hinv

theorem goes {w : World μ} {r : Reader μ} {state : State μ} (h : Inv w r state) : Goes w r := by
  cases state with
  | PollingConsumer => exact goes_consumer h
  | PollingAck msg f => exact goes_ack h

/-! ## Any number of polls -/

theorem inv_run (w : World μ) (n : Nat) : ∃ state, Inv w (run w n) state := by
  induction n with
  | zero =>
    refine ⟨.PollingConsumer, rfl, ?_, rfl, ⟨[], rfl⟩, each_nil⟩
    intro msg f heq
    cases heq
  | succ n ih =>
    obtain ⟨state, hinv⟩ := ih
    exact (goes hinv).2

/-- **Headline.**  For any answers of the consumer and of the ack channel, after any number of polls: the
    next finds a state; what was taken is what the consumer yielded; of each item, in turn, became one of
    the four blocks; and what was yielded as a message had been acknowledged. -/
theorem reader_run (w : World μ) (n : Nat) : Faithful w (run w n) := by
  obtain ⟨state, hinv⟩ := inv_run w n
  obtain ⟨bs, hbs⟩ := hinv.blocks
  exact
    { running := (goes hinv).1
      taken := hinv.taken
      blocks := ⟨bs, state, hinv.found, hbs⟩
      acked := hinv.acked }

/-! ## What is lost -/

namespace Block

/-- What was taken. -/
def item : Block μ → Option (Except Error μ)
  | ended => none
  | failed e => some (.error e)
  | acknowledged msg => some (.ok msg)
  | dropped msg _ => some (.ok msg)

/-- What was yielded. -/
def result : Block μ → Option (Except Error μ)
  | ended => none
  | failed e => some (.error e)
  | acknowledged msg => some (.ok msg)
  | dropped _ e => some (.error (.Consumer e.into))

/-- The item is yielded, unless the ack is refused. -/
theorem item_eq_result_iff (w : World μ) (b : Block μ) :
    b.item = b.result ↔ ∀ e, .refused e ∉ b.events w := by
  cases b with
  | ended => simp [item, result, events]
  | failed e => simp [item, result, events]
  | acknowledged msg => simp [item, result, events]
  | dropped msg e => simp [item, result, events]

end Block

/-- What blocks do, each one once. -/
theorem filterMap_blocks {β : Type} (w : World μ) {p : Event μ → Option β} {q : Block μ → β}
    (h : ∀ b : Block μ, (b.events w).filterMap p = [q b]) (bs : List (Block μ)) :
    (bs.flatMap (Block.events w)).filterMap p = bs.map q := by
  induction bs with
  | nil => rfl
  | cons b bs ih =>
    rw [List.flatMap_cons, List.filterMap_append, h, ih]
    rfl

theorem takes_blocks (w : World μ) (bs : List (Block μ)) :
    takes (bs.flatMap (Block.events w)) = bs.map Block.item := by
  refine filterMap_blocks w (fun b => ?_) bs
  cases b with
  | ended => rfl
  | failed e => rfl
  | acknowledged msg => rfl
  | dropped msg e => rfl

theorem yields_blocks (w : World μ) (bs : List (Block μ)) :
    yields (bs.flatMap (Block.events w)) = bs.map Block.result := by
  refine filterMap_blocks w (fun b => ?_) bs
  cases b with
  | ended => rfl
  | failed e => rfl
  | acknowledged msg => rfl
  | dropped msg e => rfl

/-- What is under way is the message that is held. -/
theorem begun_cases (w : World μ) {r : Reader μ} {state : State μ} (h : r.state = some state) :
    takes (state.begun w) = r.held ∧ yields (state.begun w) = [] ∧
      ∀ e, .refused e ∉ state.begun w := by
  unfold Reader.held
  rw [h]
  cases state with
  | PollingConsumer => exact ⟨rfl, rfl, fun _ hmem => nomatch hmem⟩
  | PollingAck msg f =>
    obtain ⟨message, sent⟩ := f
    cases sent with
    | true => exact ⟨rfl, rfl, fun e hmem => by simp [State.begun] at hmem⟩
    | false => exact ⟨rfl, rfl, fun e hmem => by simp [State.begun] at hmem⟩

/-- **Nothing is lost** as long as the channel refuses no ack, and only as long. -/
theorem lossless_iff (w : World μ) (n : Nat) :
    Lossless w (run w n) ↔ ∀ e, .refused e ∉ (run w n).events := by
  obtain ⟨state, hinv⟩ := inv_run w n
  obtain ⟨bs, hlog⟩ := hinv.blocks
  obtain ⟨htakes, hyields, hclean⟩ := begun_cases w hinv.found
  have hstream : w.stream (run w n).consumerPolls = bs.map Block.item ++ (run w n).held := by
    rw [← hinv.taken, hlog, takes_append, takes_blocks, htakes]
  have hyielded : yields (run w n).events = bs.map Block.result := by
    rw [hlog, yields_append, yields_blocks, hyields, List.append_nil]
  have hexact : bs.map Block.item = bs.map Block.result ↔ ∀ e, .refused e ∉ (run w n).events := by
    rw [List.map_inj_left, hlog]
    constructor
    · intro hsame e hmem
      rcases List.mem_append.mp hmem with hmem | hmem
      · obtain ⟨b, hb, hmem⟩ := List.mem_flatMap.mp hmem
        exact (b.item_eq_result_iff w).mp (hsame b hb) e hmem
      · exact hclean e hmem
    · intro hnone b hb
      refine (b.item_eq_result_iff w).mpr fun e hmem => hnone e ?_
      exact List.mem_append_left _ (List.mem_flatMap.mpr ⟨b, hb, hmem⟩)
  rw [← hexact]
  constructor
  · intro hlossless
    have horder := hlossless.inOrder
    rw [hstream, hyielded] at horder
    exact List.append_cancel_right horder
  · intro hsame
    refine ⟨(goes hinv).1, ?_, hinv.acked⟩
    rw [hstream, hyielded, hsame]

end Polls

/-- One message is ready, and the ack channel is closed. -/
def closed : World MessageIdData where
  messageId := id
  consumer n := if n = 0 then .Ready (some (.ok { ledgerId := 1, entryId := 1 })) else .Pending
  channel _ :=
    { ready := .Ready (.error .Disconnected), startSend := .error .Disconnected, flush := .Ready () }

/-- The message is lost: its place is taken by the error of its ack. -/
theorem closed_loses : ¬ Lossless closed (run closed 1) := by
  have hpoll : pollNext closed .new =
      (some (.Ready (some (.error (.Consumer .Closed)))),
        { state := some .PollingConsumer, consumerPolls := 1, ackPolls := 1
          events := [.took (some (.ok { ledgerId := 1, entryId := 1 })), .refused .Disconnected] }) := by
    rw [pollNext_consumer rfl]
    show pollNext closed ((Reader.new.askConsumer [.took (some (.ok _))]).put (.PollingAck _ _)) = _
    rw [pollNext_ack rfl]
    rfl
  intro h
  have hrun : run closed 1 = _ := poll_of_ready hpoll
  rw [hrun] at h
  cases h.inOrder

end PulsarClient.ReaderStream
